import Dagmar.ReleaseCleanup

/-! What a cleanup of the releases removes: from every tree, the newest successful releases up
to the quota stay beside the protected ones. -/

namespace Dagmar.Releases.Proofs
open Library Library.FileTree Library.FileTree.Tree Library.Outcome

section Directories
variable {limit : Nat} {tree : Tree} {root place : Place}

/-- A directory in the root under the name of a release. -/
structure IsRelease (tree : Tree) (root place : Place) : Prop where
  parent : place.dropLast = root
  named : isReleaseName (nameOf place)
  stands : tree.node place = some .directory

theorem not_reserved_of_release {name : String} (named : isReleaseName name) : name ∉ reserved := by
  intro inside
  simp only [reserved, List.mem_cons, List.not_mem_nil, or_false] at inside
  rcases inside with rfl | rfl | rfl <;> exact absurd named (by decide)

/-- The name of a release is its last part. -/
theorem append_nameOf (named : isReleaseName (nameOf place)) : place.dropLast ++ [nameOf place] = place := by
  have proper : place ≠ [] := by
    intro empty
    rw [empty] at named
    exact absurd named (by decide)
  rw [nameOf, List.getLast?_eq_some_getLast proper, Option.getD_some, List.dropLast_append_getLast proper]

theorem ne_nil_of_release (named : isReleaseName (nameOf place)) : place ≠ [] := by
  rw [← append_nameOf named]
  exact List.concat_ne_nil _ _

theorem directReleaseDirectory_iff (home : tree.node root = some .directory) :
    directReleaseDirectory limit tree root place ↔ IsRelease tree root place := by
  simp only [directReleaseDirectory, decide_eq_true_eq, Bool.not_eq_true]
  constructor
  · intro direct
    obtain ⟨parent, named, dir, plain⟩ := direct
    refine ⟨parent, named, ?_⟩
    subst parent
    have found := @locate_child _ limit _ _ home (not_reserved_of_release named)
    rw [append_nameOf named] at found
    rw [isDir, found] at dir
    rw [isSymlink] at plain
    cases stands : tree.node place with
    | none =>
      rw [stands] at dir
      cases dir
    | some node =>
      cases node with
      | directory => rfl
      | file modified =>
        rw [stands] at dir
        simp only [stands] at dir
        cases of_decide_eq_true dir
      | link target =>
        rw [stands] at plain
        cases plain
  · intro release
    obtain ⟨parent, named, stands⟩ := release
    refine ⟨parent, named, ?_, ?_⟩
    · subst parent
      have found := @locate_child _ limit _ _ home (not_reserved_of_release named)
      rw [append_nameOf named, stands] at found
      rw [isDir, found]
      exact decide_eq_true stands
    · rw [isSymlink, stands]

theorem mem_directReleases (home : tree.node root = some .directory) :
    place ∈ directReleases limit tree root ↔ IsRelease tree root place := by
  rw [directReleases, List.mem_filter, mem_children, directReleaseDirectory_iff home]
  refine and_iff_right_of_imp ?_
  intro release
  refine ⟨ne_nil_of_release release.named, release.parent, ?_⟩
  rw [release.stands]
  exact Option.some_ne_none _

theorem mem_successfulReleases (home : tree.node root = some .directory) :
    place ∈ successfulReleases limit tree root ↔ IsRelease tree root place ∧ isSuccessful limit tree root place := by
  rw [successfulReleases, List.mem_insertionSort, List.mem_filter, mem_directReleases home]

theorem mem_failedReleases (home : tree.node root = some .directory) :
    place ∈ failedReleases limit tree root ↔ IsRelease tree root place ∧ isFailed limit tree root place := by
  rw [failedReleases, List.mem_filter, mem_directReleases home]

theorem mem_removable {retained protectedResolved : Finset Place} :
    place ∈ removable limit tree root retained protectedResolved ↔
      place ∈ successfulReleases limit tree root ∧ place ∉ retained ∨
        place ∈ failedReleases limit tree root ∧ place ∉ protectedResolved := by
  simp only [removable, List.mem_append, List.mem_filter, decide_eq_true_eq]

/-- A release does not stand below another one of its directory. -/
theorem IsRelease.eq_of_below {other : Place} (release : IsRelease tree root place) (parent : other.dropLast = root)
    (proper : other ≠ []) (below : place <+: other) : place = other := by
  apply below.eq_of_length
  have first := congrArg List.length (release.parent.trans parent.symm)
  have inner := List.length_pos_of_ne_nil (ne_nil_of_release release.named)
  have outer := List.length_pos_of_ne_nil proper
  rw [List.length_dropLast, List.length_dropLast] at first
  omega

theorem IsRelease.not_above (release : IsRelease tree root place) : ¬ place <+: root := by
  intro above
  have short := above.length_le
  have inner := List.length_pos_of_ne_nil (ne_nil_of_release release.named)
  rw [← release.parent, List.length_dropLast] at short
  omega

end Directories

section Removal
variable {limit : Nat} {before middle after : Tree} {root release : Place}

/-- Where the status directory holds a marker of the release, or a link to one. -/
def IsMarkerEntry (limit : Nat) (tree : Tree) (root release place : Place) : Prop :=
  ∃ marker ∈ [successMarker, failedMarker], ∃ there, tree.locate limit (root ++ [statusDirectory]) = .ok there ∧
    place = there ++ [statusMarker release marker] ∧ tree.node place ≠ some .directory

/-- What a cleanup does to the tree: the releases are gone, and besides them only their markers are touched. -/
structure Cleans (limit : Nat) (root : Place) (releases : List Place) (before after : Tree) : Prop where
  within : Within after before
  gone : ∀ release ∈ releases, after.node release = none
  frame : ∀ place, after.node place = before.node place ∨ (∃ release ∈ releases, release <+: place) ∨
    ∃ release ∈ releases, IsMarkerEntry limit before root release place

theorem IsMarkerEntry.earlier {place : Place} (loss : Within after before) (same : after.node place = before.node place)
    (entry : IsMarkerEntry limit after root release place) : IsMarkerEntry limit before root release place := by
  obtain ⟨marker, listed, there, found, named, leaf⟩ := entry
  exact ⟨marker, listed, there, loss.locate_ok found, named, same ▸ leaf⟩

theorem Cleans.nil (tree : Tree) : Cleans limit root [] tree tree := by
  refine ⟨Within.refl tree, ?_, fun place => .inl rfl⟩
  intro release member
  cases member

theorem Cleans.append {first second : List Place} (earlier : Cleans limit root first before middle)
    (later : Cleans limit root second middle after) : Cleans limit root (first ++ second) before after := by
  refine ⟨later.within.trans earlier.within, ?_, ?_⟩
  · intro release member
    rcases List.mem_append.mp member with old | new
    · rcases later.within release with same | gone
      · rw [same]
        exact earlier.gone release old
      · exact gone
    · exact later.gone release new
  · intro place
    rcases earlier.frame place with same | below | entry
    · rcases later.frame place with kept | below | entry
      · exact .inl (kept.trans same)
      · obtain ⟨release, member, below⟩ := below
        exact .inr (.inl ⟨release, List.mem_append_right first member, below⟩)
      · obtain ⟨release, member, entry⟩ := entry
        exact .inr (.inr ⟨release, List.mem_append_right first member, entry.earlier earlier.within same⟩)
    · obtain ⟨release, member, below⟩ := below
      exact .inr (.inl ⟨release, List.mem_append_left second member, below⟩)
    · obtain ⟨release, member, entry⟩ := entry
      exact .inr (.inr ⟨release, List.mem_append_left second member, entry⟩)

/-- A directory stays unless it stands below a release that goes. -/
theorem Cleans.directory {releases : List Place} (cleans : Cleans limit root releases before after) {place : Place}
    (stands : before.node place = some .directory) (outside : ∀ release ∈ releases, ¬ release <+: place) :
    after.node place = some .directory := by
  rcases cleans.frame place with same | below | entry
  · rw [same, stands]
  · obtain ⟨release, member, below⟩ := below
    exact absurd below (outside release member)
  · obtain ⟨release, member, marker, listed, there, found, named, leaf⟩ := entry
    exact absurd stands leaf

theorem unlinkMarker_ok {marker : String} (listed : marker ∈ [successMarker, failedMarker])
    (done : unlinkMarker limit root release marker before = .ok after) :
    Within after before ∧
      ∀ place, after.node place = before.node place ∨ IsMarkerEntry limit before root release place := by
  rw [unlinkMarker] at done
  split at done
  · cases done
    exact ⟨Within.refl _, fun place => .inl rfl⟩
  · cases done
  next tree unlinked =>
    cases done
    obtain ⟨there, found, leaf, nodes⟩ := node_unlink unlinked
    refine ⟨?_, ?_⟩
    · intro place
      rw [nodes]
      split
      · exact .inr rfl
      · exact .inl rfl
    · intro place
      rw [nodes]
      split
      next entry => exact .inr ⟨marker, listed, there, found, entry, entry ▸ leaf⟩
      next => exact .inl rfl

theorem Cleans.unlinkMarker {releases : List Place} {marker : String} (cleans : Cleans limit root releases before middle)
    (member : release ∈ releases) (listed : marker ∈ [successMarker, failedMarker])
    (done : unlinkMarker limit root release marker middle = .ok after) : Cleans limit root releases before after := by
  obtain ⟨loss, entries⟩ := unlinkMarker_ok listed done
  refine ⟨loss.trans cleans.within, ?_, ?_⟩
  · intro other inside
    rcases loss other with same | gone
    · rw [same]
      exact cleans.gone other inside
    · exact gone
  · intro place
    rcases cleans.frame place with same | touched
    · rcases entries place with kept | entry
      · exact .inl (kept.trans same)
      · exact .inr (.inr ⟨release, member, entry.earlier cleans.within same⟩)
    · exact .inr touched

theorem Cleans.without (proper : release ≠ []) (tree : Tree) :
    Cleans limit root [release] tree (tree.without release) := by
  refine ⟨?_, ?_, ?_⟩
  · intro place
    rw [node_without proper]
    split
    · exact .inr rfl
    · exact .inl rfl
  · intro other member
    rw [List.mem_singleton.mp member, node_without proper, if_pos (List.prefix_refl _)]
  · intro place
    rw [node_without proper]
    split
    next below => exact .inr (.inl ⟨release, List.mem_singleton_self release, below⟩)
    next => exact .inl rfl

/-- The loop removes every release that it is given. -/
theorem removeReleases_ok {releases removed : List Place} (home : before.node root = some .directory)
    (done : removeReleases limit root releases before = .ok (removed, after)) :
    removed = releases ∧ Cleans limit root releases before after := by
  induction releases generalizing before removed with
  | nil =>
    cases done
    exact ⟨rfl, Cleans.nil _⟩
  | cons path paths ih =>
    simp only [removeReleases, bind_eq_ok, raiseIf_eq_ok, pure_eq_ok, Prod.mk.injEq, not_not] at done
    obtain ⟨-, direct, first, unlinked, second, unlinked', rest, finished, rfl, rfl⟩ := done
    have release := (directReleaseDirectory_iff home).mp direct
    have cleans : Cleans limit root [path] before second :=
      (((Cleans.without (ne_nil_of_release release.named) before).unlinkMarker (List.mem_singleton_self path) (by simp)
        unlinked).unlinkMarker (List.mem_singleton_self path) (by simp) unlinked')
    have still : second.node root = some .directory := by
      apply cleans.directory home
      intro other member
      rw [List.mem_singleton.mp member]
      exact release.not_above
    obtain ⟨same, later⟩ := ih still finished
    exact ⟨congrArg (path :: ·) same, cleans.append later⟩

end Removal

section Protected
variable {limit : Nat} {cwd root : Place} {tree : Tree} {items : List Path} {resolved : Finset Place}

/-- A path that names a release, or nothing. -/
def Protects (limit : Nat) (cwd : Place) (tree : Tree) (root : Place) (item : Path) : Prop :=
  tree.realpath limit cwd item = .error .notFound ∨
    ∃ place, tree.realpath limit cwd item = .ok place ∧ IsRelease tree root place

theorem resolveProtected_ok (home : tree.node root = some .directory)
    (done : resolveProtected limit cwd tree root items = .ok resolved) :
    (∀ item ∈ items, Protects limit cwd tree root item) ∧
      ∀ place, place ∈ resolved ↔ ∃ item ∈ items, tree.realpath limit cwd item = .ok place := by
  induction items generalizing resolved with
  | nil =>
    cases done
    simp
  | cons item items ih =>
    rw [resolveProtected] at done
    split at done
    next missing =>
      obtain ⟨each, members⟩ := ih done
      refine ⟨List.forall_mem_cons.mpr ⟨.inl missing, each⟩, ?_⟩
      intro place
      rw [members, List.exists_mem_cons_iff, missing, or_iff_right]
      intro impossible
      cases impossible
    · cases done
    next place found =>
      simp only [bind_eq_ok, raiseIf_eq_ok, pure_eq_ok, not_not] at done
      obtain ⟨-, direct, rest, finished, rfl⟩ := done
      obtain ⟨each, members⟩ := ih finished
      have release := (directReleaseDirectory_iff home).mp direct
      refine ⟨List.forall_mem_cons.mpr ⟨.inr ⟨place, found, release⟩, each⟩, ?_⟩
      intro other
      rw [Finset.mem_insert, members, List.exists_mem_cons_iff, found, Except.ok.injEq, eq_comm]

theorem exists_resolveProtected (home : tree.node root = some .directory)
    (each : ∀ item ∈ items, Protects limit cwd tree root item) :
    ∃ resolved, resolveProtected limit cwd tree root items = .ok resolved := by
  induction items with
  | nil => exact ⟨∅, rfl⟩
  | cons item items ih =>
    obtain ⟨first, rest⟩ := List.forall_mem_cons.mp each
    obtain ⟨resolved, finished⟩ := ih rest
    rw [resolveProtected]
    rcases first with missing | named
    · rw [missing]
      exact ⟨resolved, finished⟩
    · obtain ⟨place, found, release⟩ := named
      refine ⟨insert place resolved, ?_⟩
      rw [found]
      simp only [bind_eq_ok, raiseIf_eq_ok, pure_eq_ok, not_not]
      exact ⟨(), (directReleaseDirectory_iff home).mpr release, resolved, finished, rfl⟩

end Protected

section Runs
variable {limit : Nat} {cwd root : Place} {tree after : Tree} {path : Path} {keep : Int} {protectedPaths : List Path}
  {removed : List Place}

/-- The releases that a run retains and those that it removes. -/
abbrev retainedReleases (limit : Nat) (tree : Tree) (root : Place) (keep : Int) (protectedResolved : Finset Place) : Finset Place :=
  retain keep.toNat protectedResolved (successfulReleases limit tree root)

abbrev removedReleases (limit : Nat) (tree : Tree) (root : Place) (keep : Int) (protectedResolved : Finset Place) : List Place :=
  (removable limit tree root (retainedReleases limit tree root keep protectedResolved) protectedResolved).dedup.insertionSort (· ≤ ·)

theorem cleanupReleases_ok :
    cleanupReleases limit cwd tree path keep protectedPaths = .ok (removed, after) ↔
      1 ≤ keep ∧ ∃ root, tree.realpath limit cwd path = .ok root ∧ tree.node root = some .directory ∧
        ∃ resolved, resolveProtected limit cwd tree root protectedPaths = .ok resolved ∧
          removeReleases limit root (removedReleases limit tree root keep resolved) tree = .ok (removed, after) := by
  have home (place : Place) (done : Unit) : raiseUnlessDirectory tree place = .ok done ↔ tree.node place = some .directory := by
    rw [raiseUnlessDirectory, ← obstacle_eq_none]
    cases tree.obstacle place <;> simp
  simp only [cleanupReleases, bind_eq_ok, raiseIf_eq_ok, mapError_eq_ok, home, not_lt]
  constructor
  · intro done
    obtain ⟨-, quota, root, found, resolved, named, -, stands, rest⟩ := done
    exact ⟨quota, root, found, stands, resolved, named, rest⟩
  · intro done
    obtain ⟨quota, root, found, stands, resolved, named, rest⟩ := done
    exact ⟨(), quota, root, found, resolved, named, (), stands, rest⟩

theorem mem_removedReleases {resolved : Finset Place} {place : Place} :
    place ∈ removedReleases limit tree root keep resolved ↔
      place ∈ successfulReleases limit tree root ∧ place ∉ retainedReleases limit tree root keep resolved ∨
        place ∈ failedReleases limit tree root ∧ place ∉ resolved := by
  rw [removedReleases, List.mem_insertionSort, List.mem_dedup, mem_removable]

/-- What stays after a run, seen from the tree it leaves. -/
theorem Cleans.isRelease_iff {releases : List Place} {place : Place} (cleans : Cleans limit root releases tree after)
    (each : ∀ release ∈ releases, IsRelease tree root release) :
    IsRelease after root place ↔ IsRelease tree root place ∧ place ∉ releases := by
  constructor
  · intro release
    refine ⟨⟨release.parent, release.named, cleans.within.of_some release.stands⟩, ?_⟩
    intro member
    have stands := release.stands
    rw [cleans.gone place member] at stands
    cases stands
  · intro stays
    obtain ⟨release, spared⟩ := stays
    refine ⟨release.parent, release.named, cleans.directory release.stands ?_⟩
    intro other member below
    have same := (each other member).eq_of_below release.parent (ne_nil_of_release release.named) below
    exact spared (same ▸ member)

theorem markerTime_within {release : Place} {marker : String} {time : Int} (loss : Within after tree)
    (found : markerTime limit after root release marker = some time) : markerTime limit tree root release marker = some time := by
  unfold markerTime at found ⊢
  split at found
  next there located =>
    rw [loss.locate_ok located]
    split at found
    next modified stands =>
      simp only [loss.of_some stands]
      exact found
    · cases found
  · cases found

theorem isFailed_iff {release : Place} :
    isFailed limit tree root release ↔
      markerTime limit tree root release successMarker = none ∧ (markerTime limit tree root release failedMarker).isSome := by
  simp [isFailed, isSuccessful]

theorem newer_of_rank {kept dropped : Place} {keptTime droppedTime : Int} (different : nameOf kept ≠ nameOf dropped)
    (timed : markerTime limit tree root kept successMarker = some keptTime)
    (timed' : markerTime limit tree root dropped successMarker = some droppedTime)
    (order : rank limit tree root dropped ≤ rank limit tree root kept) :
    droppedTime < keptTime ∨ droppedTime = keptTime ∧ nameOf dropped < nameOf kept := by
  rw [rank, rank, timed, timed', Option.getD_some, Option.getD_some, Prod.Lex.toLex_le_toLex] at order
  rcases order with earlier | tie
  · exact .inl earlier
  · exact .inr ⟨tie.1, lt_of_le_of_ne tie.2 different.symm⟩

/-- What a run is told to remove are releases. -/
theorem isRelease_of_removed {resolved : Finset Place} (home : tree.node root = some .directory) :
    ∀ release ∈ removedReleases limit tree root keep resolved, IsRelease tree root release := by
  intro release member
  rcases mem_removedReleases.mp member with successful | failed
  · exact ((mem_successfulReleases home).mp successful.1).1
  · exact ((mem_failedReleases home).mp failed.1).1

/-- A second run finds every release that is left retained or protected, when the protected ones are still
named and no successful one is left with its failure marker only. -/
theorem removedReleases_after {resolved : Finset Place} (quota : 1 ≤ keep) (home : tree.node root = some .directory)
    (still : after.node root = some .directory)
    (cleans : Cleans limit root (removedReleases limit tree root keep resolved) tree after)
    (marked : ∀ place ∈ retainedReleases limit tree root keep resolved, place ∉ resolved → ¬ isFailed limit after root place) :
    removedReleases limit after root keep resolved = [] := by
  have stays {place : Place} (release : IsRelease after root place) :
      IsRelease tree root place ∧ place ∉ removedReleases limit tree root keep resolved :=
    (cleans.isRelease_iff (isRelease_of_removed home)).mp release
  have spared {place : Place} (release : IsRelease after root place) (successful : isSuccessful limit tree root place) :
      place ∈ retainedReleases limit tree root keep resolved := by
    obtain ⟨release, kept⟩ := stays release
    by_contra out
    exact kept (mem_removedReleases.mpr (.inl ⟨(mem_successfulReleases home).mpr ⟨release, successful⟩, out⟩))
  have inside : resolved ∪ (successfulReleases limit after root).toFinset ⊆ retainedReleases limit tree root keep resolved := by
    apply Finset.union_subset start_subset_retain
    intro place member
    obtain ⟨release, successful⟩ := (mem_successfulReleases still).mp (List.mem_toFinset.mp member)
    obtain ⟨time, found⟩ := Option.isSome_iff_exists.mp successful
    exact spared release (by rw [isSuccessful, markerTime_within cleans.within found]; rfl)
  have room : (resolved ∪ (successfulReleases limit after root).toFinset).card ≤ max resolved.card keep.toNat := by
    have small := Finset.card_le_card inside
    rw [retainedReleases, card_retain] at small
    omega
  apply List.eq_nil_iff_forall_not_mem.mpr
  intro place member
  rcases mem_removedReleases.mp member with successful | failed
  · exact successful.2 (mem_retain_of_room room successful.1)
  · obtain ⟨member, loose⟩ := failed
    obtain ⟨release, lost⟩ := (mem_failedReleases still).mp member
    obtain ⟨-, found⟩ := isFailed_iff.mp lost
    obtain ⟨time, found⟩ := Option.isSome_iff_exists.mp found
    by_cases successful : isSuccessful limit tree root place
    · exact marked place (spared release successful) loose lost
    · have failed : isFailed limit tree root place :=
        isFailed_iff.mpr ⟨by simpa [isSuccessful] using successful, by rw [markerTime_within cleans.within found]; rfl⟩
      obtain ⟨release, kept⟩ := stays release
      exact kept (mem_removedReleases.mpr (.inr ⟨(mem_failedReleases home).mpr ⟨release, failed⟩, loose⟩))

theorem retained_newest {resolved : Finset Place} {kept dropped : Place} {keptTime droppedTime : Int}
    (home : tree.node root = some .directory) (retained : kept ∈ retainedReleases limit tree root keep resolved)
    (loose : kept ∉ resolved) (successful : dropped ∈ successfulReleases limit tree root)
    (out : dropped ∉ retainedReleases limit tree root keep resolved)
    (timed : markerTime limit tree root kept successMarker = some keptTime)
    (timed' : markerTime limit tree root dropped successMarker = some droppedTime) :
    droppedTime < keptTime ∨ droppedTime = keptTime ∧ nameOf dropped < nameOf kept := by
  have sorted : (successfulReleases limit tree root).Pairwise fun first second =>
      rank limit tree root second ≤ rank limit tree root first := List.pairwise_insertionSort _ _
  apply newer_of_rank ?_ timed timed' (retain_order sorted retained loose successful out)
  intro same
  have member : kept ∈ successfulReleases limit tree root := by
    rcases Finset.mem_union.mp (retain_subset retained) with inside | added
    · exact absurd inside loose
    · exact List.mem_toFinset.mp added
  have first := ((mem_successfulReleases home).mp member).1
  have second := ((mem_successfulReleases home).mp successful).1
  have equal : kept = dropped := by
    rw [← append_nameOf first.named, ← append_nameOf second.named, first.parent, second.parent, same]
  exact out (equal ▸ retained)

/-- What was protected is found again as it was, or it is missing. -/
theorem resolveProtected_again {resolved : Finset Place} (still : after.node root = some .directory)
    (loss : Tree.Within after tree) (each : ∀ item ∈ protectedPaths, Protects limit cwd tree root item)
    (mem_named : ∀ place, place ∈ resolved ↔ ∃ item ∈ protectedPaths, tree.realpath limit cwd item = .ok place)
    (stay : ∀ place ∈ resolved, IsRelease after root place)
    (named : ∀ place ∈ resolved, ∃ item ∈ protectedPaths, after.realpath limit cwd item = .ok place) :
    resolveProtected limit cwd after root protectedPaths = .ok resolved := by
  have each' : ∀ item ∈ protectedPaths, Protects limit cwd after root item := by
    intro item listed
    rcases loss.realpath limit cwd item with same | missing
    · rcases each item listed with missing | found
      · exact .inl (same.trans missing)
      · obtain ⟨place, found, -⟩ := found
        exact .inr ⟨place, same.trans found, stay place ((mem_named place).mpr ⟨item, listed, found⟩)⟩
    · exact .inl missing
  obtain ⟨resolved', resolution⟩ := exists_resolveProtected still each'
  have members := (resolveProtected_ok still resolution).2
  rw [resolution, Except.ok.injEq]
  ext place
  rw [members]
  constructor
  · intro found
    obtain ⟨item, listed, found⟩ := found
    rcases loss.realpath limit cwd item with same | missing
    · exact (mem_named place).mpr ⟨item, listed, same.symm.trans found⟩
    · cases missing.symm.trans found
  · exact named place

/-- The second run ends without a removal, or it does not find the root. -/
theorem second_run {resolved : Finset Place} (quota : 1 ≤ keep) (found : tree.realpath limit cwd path = .ok root)
    (home : tree.node root = some .directory)
    (resolution : resolveProtected limit cwd tree root protectedPaths = .ok resolved)
    (releases : ∀ place ∈ resolved, IsRelease tree root place)
    (cleans : Cleans limit root (removedReleases limit tree root keep resolved) tree after)
    (named : ∀ place ∈ resolved, ∃ item ∈ protectedPaths, after.realpath limit cwd item = .ok place)
    (marked : ∀ place ∈ retainedReleases limit tree root keep resolved, place ∉ resolved → ¬ isFailed limit after root place) :
    cleanupReleases limit cwd after path keep protectedPaths = .ok ([], after) ∨
      after.realpath limit cwd path = .error .notFound ∧
        cleanupReleases limit cwd after path keep protectedPaths = .error (.osError .notFound) := by
  rcases cleans.within.realpath limit cwd path with same | missing
  · refine .inl (cleanupReleases_ok.mpr ⟨quota, root, same.trans found, ?_⟩)
    have still : after.node root = some .directory := by
      apply cleans.directory home
      intro release member
      exact (isRelease_of_removed home release member).not_above
    have stay : ∀ place ∈ resolved, IsRelease after root place := by
      intro place member
      apply (cleans.isRelease_iff (isRelease_of_removed home)).mpr ⟨releases place member, ?_⟩
      intro gone
      rcases mem_removedReleases.mp gone with successful | failed
      · exact successful.2 (start_subset_retain member)
      · exact failed.2 member
    obtain ⟨each, mem_named⟩ := resolveProtected_ok home resolution
    refine ⟨still, resolved, resolveProtected_again still cleans.within each mem_named stay named, ?_⟩
    rw [removedReleases_after quota home still cleans marked]
    rfl
  · refine .inr ⟨missing, ?_⟩
    rw [cleanupReleases, missing, raiseIf, if_neg (by omega)]
    rfl

end Runs

section Retention
variable {limit : Nat} {cwd : Place} {tree after : Tree} {path : Path} {keep : Int} {protectedPaths : List Path}
  {removed : List Place}

/-- What a run removes from a tree and what it retains, for a root and the protected, the successful, the failed and
the retained releases. -/
structure Retention (limit : Nat) (cwd : Place) (tree : Tree) (path : Path) (keep : Int) (protectedPaths : List Path)
    (removed : List Place) (after : Tree) (root : Place) (named successful failed retained : Finset Place) : Prop where
  resolved : tree.realpath limit cwd path = .ok root
  mem_named : ∀ place, place ∈ named ↔ ∃ item ∈ protectedPaths, tree.realpath limit cwd item = .ok place
  mem_successful : ∀ place, place ∈ successful ↔
    IsRelease tree root place ∧ (markerTime limit tree root place successMarker).isSome
  mem_failed : ∀ place, place ∈ failed ↔ IsRelease tree root place ∧
    markerTime limit tree root place successMarker = none ∧ (markerTime limit tree root place failedMarker).isSome
  releases : ∀ place ∈ named, IsRelease tree root place
  protects : named ⊆ retained
  retained_subset : retained ⊆ named ∪ successful
  size : (retained.card : Int) = max (named.card : Int) (min keep (named ∪ successful).card)
  newest : ∀ kept ∈ retained, kept ∉ named → ∀ dropped ∈ successful, dropped ∉ retained → ∀ keptTime droppedTime,
    markerTime limit tree root kept successMarker = some keptTime →
    markerTime limit tree root dropped successMarker = some droppedTime →
    droppedTime < keptTime ∨ droppedTime = keptTime ∧ nameOf dropped < nameOf kept
  mem_removed : ∀ place, place ∈ removed ↔ place ∈ successful \ retained ∪ failed \ named
  once : removed.Nodup
  spares : ∀ place ∈ removed, place ∉ named ∧ IsRelease tree root place ∧
    ((markerTime limit tree root place successMarker).isSome ∨ (markerTime limit tree root place failedMarker).isSome)
  cleans : Cleans limit root removed tree after
  again : (∀ place ∈ named, ∃ item ∈ protectedPaths, after.realpath limit cwd item = .ok place) →
    (∀ place ∈ retained, place ∉ named → ¬ isFailed limit after root place) →
    cleanupReleases limit cwd after path keep protectedPaths = .ok ([], after) ∨
      after.realpath limit cwd path = .error .notFound ∧
        cleanupReleases limit cwd after path keep protectedPaths = .error (.osError .notFound)

/-- A run that does not raise retains what it must, and a second one finds nothing to remove. -/
theorem cleanup_retains (done : cleanupReleases limit cwd tree path keep protectedPaths = .ok (removed, after)) :
    ∃ root named successful failed retained,
      Retention limit cwd tree path keep protectedPaths removed after root named successful failed retained := by
  obtain ⟨quota, root, found, home, named, resolution, removal⟩ := cleanupReleases_ok.mp done
  obtain ⟨rfl, cleans⟩ := removeReleases_ok home removal
  obtain ⟨each, mem_named⟩ := resolveProtected_ok home resolution
  have releases : ∀ place ∈ named, IsRelease tree root place := by
    intro place member
    obtain ⟨item, listed, names⟩ := (mem_named place).mp member
    rcases each item listed with missing | release
    · cases missing.symm.trans names
    · obtain ⟨other, names', release⟩ := release
      cases names'.symm.trans names
      exact release
  have mem_successful (place : Place) : place ∈ successfulReleases limit tree root ↔
      IsRelease tree root place ∧ isSuccessful limit tree root place := mem_successfulReleases home
  refine ⟨root, named, (successfulReleases limit tree root).toFinset, (failedReleases limit tree root).toFinset,
    retainedReleases limit tree root keep named, ?_⟩
  exact {
    resolved := found
    mem_named := mem_named
    mem_successful := fun place => List.mem_toFinset.trans (mem_successful place)
    mem_failed := fun place => by rw [List.mem_toFinset, mem_failedReleases home, isFailed_iff]
    releases := releases
    protects := start_subset_retain
    retained_subset := retain_subset
    size := by
      rw [card_retain]
      omega
    newest := fun kept member loose dropped old out keptTime droppedTime timed timed' =>
      retained_newest home member loose (List.mem_toFinset.mp old) out timed timed'
    mem_removed := by
      intro place
      rw [mem_removedReleases, Finset.mem_union, Finset.mem_sdiff, Finset.mem_sdiff, List.mem_toFinset, List.mem_toFinset]
    once := (List.perm_insertionSort _ _).nodup_iff.mpr (List.nodup_dedup _)
    spares := by
      intro place member
      rcases mem_removedReleases.mp member with successful | failed
      · obtain ⟨release, marker⟩ := (mem_successful place).mp successful.1
        exact ⟨fun inside => successful.2 (start_subset_retain inside), release, .inl marker⟩
      · obtain ⟨release, marker⟩ := (mem_failedReleases home).mp failed.1
        exact ⟨failed.2, release, .inr (isFailed_iff.mp marker).2⟩
    cleans := cleans
    again := second_run quota found home resolution releases cleans }

end Retention

section Passages

def releaseNamed (digit : Char) : String := String.ofList (List.replicate 40 digit) ++ "-1"

def onHost (name : String) : Place := ["srv", name]

/-- Two successful releases of one time, a failed one and a link under the name of a release. -/
def hostTree : Tree where
  entries := ⟨[(["srv"], .directory), (onHost (releaseNamed 'a'), .directory), (onHost (releaseNamed 'b'), .directory),
    (onHost (releaseNamed 'c'), .directory), (onHost (releaseNamed 'd'), .link ⟨false, [releaseNamed 'c']⟩),
    (onHost statusDirectory, .directory), (onHost statusDirectory ++ [releaseNamed 'a' ++ successMarker], .file 1),
    (onHost statusDirectory ++ [releaseNamed 'b' ++ failedMarker], .file 2),
    (onHost statusDirectory ++ [releaseNamed 'c' ++ successMarker], .file 1)], by decide +kernel⟩
  named := by decide +kernel
  rooted := by decide +kernel

/-- The protected path passes through a release that is removed. -/
def passage : Path := ⟨true, ["srv", releaseNamed 'a', "..", releaseNamed 'b']⟩

theorem host_runs : ∃ after last, cleanupReleases 40 [] hostTree ⟨true, ["srv"]⟩ 2 [passage] = .ok ([onHost (releaseNamed 'a')], after) ∧
    cleanupReleases 40 [] after ⟨true, ["srv"]⟩ 2 [passage] = .ok ([onHost (releaseNamed 'b')], last) := by
  have runs : ((cleanupReleases 40 [] hostTree ⟨true, ["srv"]⟩ 2 [passage]).toOption.bind fun first =>
      (cleanupReleases 40 [] first.2 ⟨true, ["srv"]⟩ 2 [passage]).toOption.map fun second => (first.1, second.1)) =
      some ([onHost (releaseNamed 'a')], [onHost (releaseNamed 'b')]) := by decide +kernel
  obtain ⟨first, done, rest⟩ := Option.bind_eq_some_iff.mp runs
  obtain ⟨second, done', same⟩ := Option.map_eq_some_iff.mp rest
  obtain ⟨left, right⟩ := Prod.mk.inj same
  refine ⟨first.2, second.2, ?_, ?_⟩
  · rw [toOption_eq_some.mp done, ← left]
  · rw [toOption_eq_some.mp done', ← right]

theorem host_retains : ∃ after root named successful failed retained,
    Retention 40 [] hostTree ⟨true, ["srv"]⟩ 2 [passage] [onHost (releaseNamed 'a')] after root named successful failed retained := by
  obtain ⟨after, last, first, -⟩ := host_runs
  exact ⟨after, cleanup_retains first⟩

/-- Once the passage is gone, the second run removes what the first one protected. -/
theorem second_run_removes : ¬ ∀ limit cwd tree path keep protectedPaths removed after again last,
    cleanupReleases limit cwd tree path keep protectedPaths = .ok (removed, after) →
    cleanupReleases limit cwd after path keep protectedPaths = .ok (again, last) → again = [] := by
  intro nothing
  obtain ⟨after, last, first, second⟩ := host_runs
  have impossible := nothing _ _ _ _ _ _ _ _ _ _ first second
  cases impossible

end Passages

end Dagmar.Releases.Proofs
