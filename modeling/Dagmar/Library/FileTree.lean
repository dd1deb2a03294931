import Dagmar.Library.Table
import Mathlib.Data.List.Infix

/-! A tree of directories, files and symbolic links. A path is walked from a place of the tree
and its links are followed; in a tree that has lost some of its nodes, the walk ends where
it ended before, or it misses a node. -/

namespace Dagmar.Library.FileTree

/-- Names of directories, from the root of the tree. -/
abbrev Place := List String

structure Path where
  absolute : Bool
  parts : List String
deriving DecidableEq

inductive Node where
  | directory
  | file (modified : Int)
  | link (target : Path)
deriving DecidableEq

/-- Parts of a path that are no names. -/
def reserved : List String := ["", ".", ".."]

/-- The nodes below the root, each of them in a directory. -/
structure Tree where
  entries : Table (Place × Node) Prod.fst
  named : ∀ entry ∈ entries.rows, ∀ part ∈ entry.1, part ∉ reserved
  rooted : ∀ entry ∈ entries.rows,
    entry.1 ≠ [] ∧ (entry.1.dropLast = [] ∨ (entry.1.dropLast, Node.directory) ∈ entries.rows)

inductive Failure where
  | notFound
  | notDirectory
  | isDirectory
  | loop
deriving DecidableEq

namespace Tree

section Operations

def node (tree : Tree) (place : Place) : Option Node :=
  if place = [] then some .directory else (tree.entries.get place).map Prod.snd

/-- The places in a directory. -/
def children (tree : Tree) (place : Place) : List Place :=
  (tree.entries.select fun entry => entry.1.dropLast = place).map Prod.fst

/-- The tree without a place and everything below it. -/
def without (tree : Tree) (place : Place) : Tree where
  entries := tree.entries.deleteWhere fun entry => place <+: entry.1
  named := by
    intro entry member
    exact tree.named entry (Table.mem_deleteWhere.mp member).1
  rooted := by
    intro entry member
    obtain ⟨listed, spared⟩ := Table.mem_deleteWhere.mp member
    obtain ⟨proper, parent⟩ := tree.rooted entry listed
    refine ⟨proper, parent.imp_right fun parent => Table.mem_deleteWhere.mpr ⟨parent, ?_⟩⟩
    exact fun below => spared (below.trans (List.dropLast_prefix _))

/-- Why a place cannot be passed through, if it cannot. -/
def obstacle (tree : Tree) (place : Place) : Option Failure :=
  match tree.node place with
  | some .directory => none
  | some _ => some .notDirectory
  | none => some .notFound

/-- A path is walked part by part. The kernel passes `.` and `..` in directories only; a walk
that is `lexical` takes them off without a look at the place. -/
def walk (tree : Tree) (lexical : Bool) (follow : Place → Path → Except Failure Place) :
    Place → List String → Except Failure Place
  | here, [] => .ok here
  | here, part :: parts =>
    if part ∈ reserved then
      match if lexical then none else tree.obstacle here with
      | some failure => .error failure
      | none => walk tree lexical follow (if part = ".." then here.dropLast else here) parts
    else
      match tree.node (here ++ [part]) with
      | none => .error ((tree.obstacle here).getD .notFound)
      | some (.link target) => follow here target >>= fun there => walk tree lexical follow there parts
      | some _ => walk tree lexical follow (here ++ [part]) parts

/-- The end of a path. Links nest as deep as `limit`; deeper ones count as a loop. -/
def follow (tree : Tree) (lexical : Bool) : Nat → Place → Path → Except Failure Place
  | 0, _, _ => .error .loop
  | limit + 1, here, path =>
    if path.absolute then tree.walk lexical (tree.follow lexical limit) [] path.parts
    else
      match tree.obstacle here with
      | some failure => .error failure
      | none => tree.walk lexical (tree.follow lexical limit) here path.parts

/-- `realpath`, which raises when a part is missing. -/
def realpath (tree : Tree) (limit : Nat) (here : Place) (path : Path) : Except Failure Place :=
  tree.follow true (limit + 1) here path

/-- The place that the kernel finds under an absolute path. -/
def locate (tree : Tree) (limit : Nat) (parts : List String) : Except Failure Place :=
  tree.follow false (limit + 1) [] ⟨true, parts⟩

/-- The last part of the path is not followed. -/
def unlink (tree : Tree) (limit : Nat) (directory : List String) (name : String) : Except Failure Tree :=
  tree.locate limit directory >>= fun there =>
    match tree.node (there ++ [name]) with
    | none => .error ((tree.obstacle there).getD .notFound)
    | some .directory => .error .isDirectory
    | some _ => .ok (tree.without (there ++ [name]))

end Operations

section Nodes
variable {tree : Tree} {place : Place}

@[simp] theorem node_root (tree : Tree) : tree.node [] = some .directory := rfl

theorem node_eq_some (proper : place ≠ []) {found : Node} :
    tree.node place = some found ↔ (place, found) ∈ tree.entries := by
  rw [node, if_neg proper, Option.map_eq_some_iff]
  constructor
  · intro stored
    obtain ⟨entry, stored, same⟩ := stored
    obtain ⟨member, key⟩ := Table.get_eq_some_iff.mp stored
    rwa [← key, ← same]
  · intro member
    exact ⟨(place, found), Table.get_of_mem member, rfl⟩

theorem obstacle_eq_none : tree.obstacle place = none ↔ tree.node place = some .directory := by
  unfold obstacle
  split <;> simp_all

/-- What stands somewhere stands in a directory. -/
theorem node_dropLast (stands : tree.node place ≠ none) : tree.node place.dropLast = some .directory := by
  by_cases proper : place = []
  · rw [proper, List.dropLast_nil, node_root]
  · obtain ⟨found, stored⟩ := Option.ne_none_iff_exists'.mp stands
    rcases (tree.rooted _ ((node_eq_some proper).mp stored)).2 with root | parent
    · rw [show place.dropLast = [] from root, node_root]
    · by_cases root : place.dropLast = []
      · rw [root, node_root]
      · exact (node_eq_some root).mpr parent

/-- Everything on the way to a directory is a directory. -/
theorem node_above (stands : tree.node place = some .directory) {above : Place} (way : above <+: place) :
    tree.node above = some .directory := by
  induction place using List.reverseRecOn with
  | nil => rw [List.prefix_nil.mp way, node_root]
  | append_singleton place name ih =>
    rcases List.prefix_concat_iff.mp way with whole | way
    · rwa [whole]
    · apply ih ?_ way
      have parent : tree.node (place ++ [name]).dropLast = some .directory := by
        apply node_dropLast
        rw [stands]
        exact Option.some_ne_none _
      rwa [List.dropLast_concat] at parent

theorem not_reserved (proper : place ≠ []) (stands : tree.node place ≠ none) : ∀ part ∈ place, part ∉ reserved := by
  obtain ⟨found, stored⟩ := Option.ne_none_iff_exists'.mp stands
  exact tree.named _ ((node_eq_some proper).mp stored)

theorem mem_children {above : Place} :
    place ∈ tree.children above ↔ place ≠ [] ∧ place.dropLast = above ∧ tree.node place ≠ none := by
  simp only [children, List.mem_map, Table.mem_select]
  constructor
  · intro found
    obtain ⟨entry, ⟨listed, parent⟩, rfl⟩ := found
    have proper := (tree.rooted entry listed).1
    refine ⟨proper, parent, ?_⟩
    rw [(node_eq_some proper).mpr listed]
    exact Option.some_ne_none _
  · intro found
    obtain ⟨proper, parent, stands⟩ := found
    obtain ⟨found, stored⟩ := Option.ne_none_iff_exists'.mp stands
    exact ⟨(place, found), ⟨(node_eq_some proper).mp stored, parent⟩, rfl⟩

theorem node_without (proper : place ≠ []) (other : Place) :
    (tree.without place).node other = if place <+: other then none else tree.node other := by
  by_cases root : other = []
  · subst root
    rw [if_neg (by simpa using proper), node_root, node_root]
  · apply Option.ext
    intro found
    rw [node_eq_some root]
    refine Table.mem_deleteWhere.trans ?_
    split
    next below => simp [below]
    next spared => rw [and_iff_left spared, ← node_eq_some root]

/-- Unlinking takes away one node, and no directory. -/
theorem node_unlink {after : Tree} {limit : Nat} {directory : List String} {name : String}
    (done : tree.unlink limit directory name = .ok after) :
    ∃ there, tree.locate limit directory = .ok there ∧ tree.node (there ++ [name]) ≠ some .directory ∧
      ∀ other, after.node other = if other = there ++ [name] then none else tree.node other := by
  rw [unlink] at done
  cases found : tree.locate limit directory with
  | error failure =>
    rw [found] at done
    cases done
  | ok there =>
    rw [found] at done
    change (match tree.node (there ++ [name]) with
      | none => .error ((tree.obstacle there).getD .notFound)
      | some .directory => .error .isDirectory
      | some _ => .ok (tree.without (there ++ [name]))) = Except.ok after at done
    split at done
    · cases done
    · cases done
    next node leaf stands =>
      cases done
      have kind : tree.node (there ++ [name]) ≠ some .directory := by
        rw [stands]
        intro same
        exact leaf (Option.some.inj same)
      refine ⟨there, rfl, kind, ?_⟩
      intro other
      rw [node_without (by simp)]
      by_cases same : other = there ++ [name]
      · rw [if_pos same, if_pos (by rw [same])]
      · rw [if_neg same]
        split
        next below =>
          -- nothing stands below a node that is no directory
          by_contra stands'
          obtain ⟨rest, rfl⟩ := below
          have inner : rest ≠ [] := by
            intro empty
            exact same (by rw [empty, List.append_nil])
          have parent := node_dropLast (Ne.symm stands')
          rw [List.dropLast_append_of_ne_nil inner] at parent
          exact kind (node_above parent (List.prefix_append _ _))
        next => rfl

end Nodes

section Walks
variable {tree : Tree} {lexical : Bool} {follow : Place → Path → Except Failure Place}

/-- A walk through directories passes them. -/
theorem walk_directories {here : Place} {names : List String} (parts : List String)
    (stands : tree.node (here ++ names) = some .directory) :
    tree.walk lexical follow here (names ++ parts) = tree.walk lexical follow (here ++ names) parts := by
  induction names generalizing here with
  | nil => rw [List.append_nil, List.nil_append]
  | cons name names ih =>
    rw [show here ++ name :: names = here ++ [name] ++ names by simp] at stands ⊢
    have first : tree.node (here ++ [name]) = some .directory := node_above stands (List.prefix_append _ _)
    have proper := not_reserved (by simp) (by rw [first]; exact Option.some_ne_none _) name
      (List.mem_append_right here (List.mem_singleton_self name))
    rw [← ih stands, List.cons_append, walk, if_neg proper]
    simp only [first]

/-- Where the kernel ends under a name in a directory: there, unless it is a link. -/
theorem locate_child {limit : Nat} {place : Place} {name : String} (stands : tree.node place = some .directory)
    (proper : name ∉ reserved) :
    tree.locate limit (place ++ [name]) =
      match tree.node (place ++ [name]) with
      | none => .error .notFound
      | some (.link target) => tree.follow false limit place target
      | some _ => .ok (place ++ [name]) := by
  rw [locate, Tree.follow, if_pos rfl]
  have way : tree.walk false (tree.follow false limit) [] (place ++ [name]) =
      tree.walk false (tree.follow false limit) ([] ++ place) [name] := by
    apply walk_directories
    rwa [List.nil_append]
  rw [way, List.nil_append, walk, if_neg proper, obstacle_eq_none.mpr stands]
  cases tree.node (place ++ [name]) with
  | none => rfl
  | some node =>
    cases node with
    | directory => rfl
    | file modified => rfl
    | link target =>
      change (tree.follow false limit place target >>= fun there => Except.ok there) = tree.follow false limit place target
      cases tree.follow false limit place target <;> rfl

end Walks

/-- The tree that stands afterwards has lost some nodes, and the others are as they were. -/
def Within (after before : Tree) : Prop := ∀ place, after.node place = before.node place ∨ after.node place = none

namespace Within
variable {after middle before : Tree}

theorem refl (tree : Tree) : Within tree tree := fun _ => .inl rfl

theorem trans (later : Within after middle) (earlier : Within middle before) : Within after before := by
  intro place
  rcases later place with same | gone
  · rw [same]
    exact earlier place
  · exact .inr gone

theorem of_some (loss : Within after before) {place : Place} {found : Node} (stands : after.node place = some found) :
    before.node place = some found := by
  rcases loss place with same | gone
  · rwa [← same]
  · rw [gone] at stands
    cases stands

theorem obstacle (loss : Within after before) (place : Place) :
    after.obstacle place = before.obstacle place ∨ after.obstacle place = some .notFound := by
  unfold Tree.obstacle
  rcases loss place with same | gone
  · exact .inl (by rw [same])
  · exact .inr (by rw [gone])

theorem missing (loss : Within after before) (place : Place) :
    (after.obstacle place).getD .notFound = (before.obstacle place).getD .notFound ∨
      (after.obstacle place).getD .notFound = .notFound := by
  rcases loss.obstacle place with same | missing
  · exact .inl (by rw [same])
  · exact .inr (by rw [missing]; rfl)

/-- What stood in a directory is missed there, or with the directory. -/
theorem missed (loss : Within after before) {place : Place} {name : String} (stood : before.node (place ++ [name]) ≠ none) :
    (after.obstacle place).getD .notFound = .notFound := by
  have parent := node_dropLast stood
  rw [List.dropLast_concat] at parent
  rcases loss.missing place with same | missing
  · rw [same, obstacle_eq_none.mpr parent]
    rfl
  · exact missing

/-- A walk in what is left ends as it did, or misses a node. -/
theorem walk (loss : Within after before) {lexical : Bool} {follow follow' : Place → Path → Except Failure Place}
    (links : ∀ here path, follow' here path = follow here path ∨ follow' here path = .error .notFound)
    (here : Place) (parts : List String) :
    after.walk lexical follow' here parts = before.walk lexical follow here parts ∨
      after.walk lexical follow' here parts = .error .notFound := by
  induction parts generalizing here with
  | nil => exact .inl rfl
  | cons part parts ih =>
    rw [Tree.walk, Tree.walk]
    by_cases special : part ∈ reserved
    · rw [if_pos special, if_pos special]
      cases lexical with
      | true => exact ih _
      | false =>
        simp only [Bool.false_eq_true, if_false]
        rcases loss.obstacle here with same | missing
        · rw [same]
          cases before.obstacle here with
          | some failure => exact .inl rfl
          | none => exact ih _
        · exact .inr (by rw [missing])
    · rw [if_neg special, if_neg special]
      cases stood : before.node (here ++ [part]) with
      | none =>
        have absent : after.node (here ++ [part]) = none := (loss _).elim (fun same => same.trans stood) id
        rw [absent]
        exact (loss.missing here).imp (congrArg Except.error) (congrArg Except.error)
      | some node =>
        rcases loss (here ++ [part]) with same | gone
        · rw [same, stood]
          cases node with
          | directory => exact ih _
          | file modified => exact ih _
          | link target =>
            simp only
            rcases links here target with same | missing
            · rw [same]
              cases follow here target with
              | error failure => exact .inl rfl
              | ok there => exact ih there
            · exact .inr (by rw [missing]; rfl)
        · have lost := loss.missed (by rw [stood]; exact Option.some_ne_none node)
          rw [gone]
          exact .inr (congrArg Except.error lost)

theorem follow (loss : Within after before) (lexical : Bool) (limit : Nat) (here : Place) (path : Path) :
    after.follow lexical limit here path = before.follow lexical limit here path ∨
      after.follow lexical limit here path = .error .notFound := by
  induction limit generalizing here path with
  | zero => exact .inl rfl
  | succ limit ih =>
    rw [Tree.follow, Tree.follow]
    by_cases absolute : path.absolute
    · rw [if_pos absolute, if_pos absolute]
      exact loss.walk ih [] path.parts
    · rw [if_neg absolute, if_neg absolute]
      rcases loss.obstacle here with same | missing
      · rw [same]
        cases before.obstacle here with
        | some failure => exact .inl rfl
        | none => exact loss.walk ih here path.parts
      · exact .inr (by rw [missing])

theorem realpath (loss : Within after before) (limit : Nat) (here : Place) (path : Path) :
    after.realpath limit here path = before.realpath limit here path ∨
      after.realpath limit here path = .error .notFound :=
  loss.follow true (limit + 1) here path

theorem locate_ok (loss : Within after before) {limit : Nat} {parts : List String} {there : Place}
    (found : after.locate limit parts = .ok there) : before.locate limit parts = .ok there := by
  rcases loss.follow false (limit + 1) [] ⟨true, parts⟩ with same | missing
  · exact same.symm.trans found
  · cases missing.symm.trans found

end Within

end Tree

end Dagmar.Library.FileTree
