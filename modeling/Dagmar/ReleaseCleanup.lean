import Dagmar.Library.FileTree
import Dagmar.Library.Outcome
import Dagmar.Library.Retention
import Mathlib.Data.List.Lex
import Mathlib.Data.List.Sort
import Mathlib.Data.Prod.Lex
import Mathlib.Data.String.Basic

/-! Releases on the host: the newest successful ones and the protected ones stay, and the
failed ones go. -/

namespace Dagmar.Releases
open Library Library.FileTree Library.Outcome

section Names

def isHexDigit (c : Char) : Bool := ('0' ≤ c ∧ c ≤ '9') ∨ ('a' ≤ c ∧ c ≤ 'f')

/-- `[0-9a-f]{40}-[1-9][0-9]*` -/
def isReleaseName (name : String) : Bool :=
  let commit := name.toList.take 40
  match name.toList.drop 40 with
  | '-' :: first :: rest =>
    commit.length = 40 ∧ commit.all isHexDigit ∧ ('1' ≤ first ∧ first ≤ '9') ∧ rest.all fun c => '0' ≤ c ∧ c ≤ '9'
  | _ => false

def statusDirectory : String := ".release-status"
def successMarker : String := ".success"
def failedMarker : String := ".failed"

def nameOf (place : Place) : String := place.getLast?.getD ""

/-- `str` of a path. -/
def textOf (path : Path) : String :=
  if path.absolute then "/" ++ "/".intercalate path.parts
  else if path.parts = [] then "." else "/".intercalate path.parts

end Names

/-- What the script raises. -/
inductive CleanupError where
  | valueError (text : String)
  | runtimeError (text : String)
  | osError (failure : Failure)
deriving DecidableEq

section Releases
variable (limit : Nat) (tree : Tree) (root : Place)

def isDir (place : Place) : Bool :=
  match tree.locate limit place with
  | .ok there => tree.node there = some .directory
  | .error _ => false

def isSymlink (place : Place) : Bool :=
  match tree.node place with
  | some (.link _) => true
  | _ => false

def directReleaseDirectory (path : Place) : Bool :=
  path.dropLast = root ∧ isReleaseName (nameOf path) ∧ isDir limit tree path ∧ ¬ isSymlink tree path

/-- The name of a marker in the status directory. -/
def statusMarker (release : Place) (marker : String) : String := nameOf release ++ marker

/-- `is_file` of a marker, with the time that `stat` gives. -/
def markerTime (release : Place) (marker : String) : Option Int :=
  match tree.locate limit (root ++ [statusDirectory, statusMarker release marker]) with
  | .ok there =>
    match tree.node there with
    | some (.file modified) => some modified
    | _ => none
  | .error _ => none

def isSuccessful (release : Place) : Bool := (markerTime limit tree root release successMarker).isSome

def isFailed (release : Place) : Bool :=
  ! isSuccessful limit tree root release && (markerTime limit tree root release failedMarker).isSome

/-- The sort key of a successful release. -/
def rank (release : Place) : Int ×ₗ String :=
  toLex ((markerTime limit tree root release successMarker).getD 0, nameOf release)

end Releases

section Cleanup
variable (limit : Nat) (cwd : Place)

def resolveProtected (tree : Tree) (root : Place) : List Path → Except CleanupError (Finset Place)
  | [] => .ok ∅
  | item :: items =>
    match tree.realpath limit cwd item with
    | .error .notFound => resolveProtected tree root items
    | .error failure => .error (.osError failure)
    | .ok resolved => do
      raiseIf (¬ directReleaseDirectory limit tree root resolved)
        (.valueError ("Protected target is not a direct release directory: " ++ textOf item))
      return insert resolved (← resolveProtected tree root items)

/-- What `iterdir` raises. -/
def raiseUnlessDirectory (tree : Tree) (place : Place) : Except CleanupError Unit :=
  match tree.obstacle place with
  | some failure => .error (.osError failure)
  | none => .ok ()

/-- `unlink` with `missing_ok`. -/
def unlinkMarker (root release : Place) (marker : String) (tree : Tree) : Except CleanupError Tree :=
  match tree.unlink limit (root ++ [statusDirectory]) (statusMarker release marker) with
  | .error .notFound => .ok tree
  | .error failure => .error (.osError failure)
  | .ok tree => .ok tree

def removeReleases (root : Place) : List Place → Tree → Except CleanupError (List Place × Tree)
  | [], tree => .ok ([], tree)
  | path :: paths, tree => do
    raiseIf (¬ directReleaseDirectory limit tree root path)
      (.runtimeError ("Release changed during cleanup: " ++ textOf ⟨true, path⟩))
    let tree ← unlinkMarker limit root path successMarker (tree.without path)
    let tree ← unlinkMarker limit root path failedMarker tree
    let (removed, tree) ← removeReleases root paths tree
    return (path :: removed, tree)

def directReleases (tree : Tree) (root : Place) : List Place :=
  (tree.children root).filter fun child => directReleaseDirectory limit tree root child

/-- The newest first. -/
def successfulReleases (tree : Tree) (root : Place) : List Place :=
  ((directReleases limit tree root).filter fun child => isSuccessful limit tree root child).insertionSort
    fun first second => rank limit tree root second ≤ rank limit tree root first

def failedReleases (tree : Tree) (root : Place) : List Place :=
  (directReleases limit tree root).filter fun child => isFailed limit tree root child

def removable (tree : Tree) (root : Place) (retained protectedResolved : Finset Place) : List Place :=
  (successfulReleases limit tree root).filter (· ∉ retained) ++
    (failedReleases limit tree root).filter (· ∉ protectedResolved)

/-- The releases that were removed, and what is left of the tree. -/
def cleanupReleases (tree : Tree) (root : Path) (keep : Int) (protectedPaths : List Path) :
    Except CleanupError (List Place × Tree) := do
  raiseIf (keep < 1) (.valueError "keep must be at least 1")
  let resolvedRoot ← (tree.realpath limit cwd root).mapError .osError
  let protectedResolved ← resolveProtected limit cwd tree resolvedRoot protectedPaths
  raiseUnlessDirectory tree resolvedRoot
  let retained := retain keep.toNat protectedResolved (successfulReleases limit tree resolvedRoot)
  let removable := (removable limit tree resolvedRoot retained protectedResolved).dedup.insertionSort (· ≤ ·)
  removeReleases limit resolvedRoot removable tree

end Cleanup

end Dagmar.Releases
