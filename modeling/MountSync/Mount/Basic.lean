/-
A mount: one directory in a tree of files.

What is in the directory under a name belongs to the mount; files further below, and all
else in the tree, do not, but a link can lead there.
-/
import MountSync.FileTree.Lookup
import MountSync.Mount.Name

namespace MountSync

/-- A mount directory, which need not exist. -/
structure Mount where
  tree : FileTree
  /-- The place of the directory. -/
  place : Place
  deriving DecidableEq, Repr, Inhabited

namespace Mount

/-- A directory with nothing in it, made at a place of a tree. -/
def empty (tree : FileTree) (place : Place) : Mount := ⟨tree.put place .directory, place⟩

/-- The same mount in a tree that has changed. -/
def withTree (m : Mount) (tree : FileTree) : Mount := { m with tree }

/-- The place of an entry. -/
def placeOf (m : Mount) (name : EntryName) : Place := name :: m.place

/-- What a name stands for, without following links. -/
def get? (m : Mount) (name : EntryName) : Option Node := m.tree.get? (m.placeOf name)

/-- Whether the directory can be used, or why not. -/
def enter (m : Mount) : Except IoFault Unit := m.tree.enter m.place

def isPresent (m : Mount) : Bool := m.tree.get? m.place = some .directory

/-- Everything in the mount, in the order of the directory. -/
def entries (m : Mount) : List (EntryName × Node) := m.tree.listing m.place

/-- The bytes that the path of the mount takes up, with the separator behind it. -/
def pathSize (m : Mount) : Nat := m.place.size + 1

theorem placeOf_injective (m : Mount) {a b : EntryName} (h : m.placeOf a = m.placeOf b) : a = b :=
  List.head_eq_of_cons_eq h

theorem placeOf_ne_place (m : Mount) (name : EntryName) : m.placeOf name ≠ m.place :=
  fun h => absurd (congrArg List.length h) (Nat.succ_ne_self _)

theorem mem_entries_iff (m : Mount) (name : EntryName) :
    name ∈ m.entries.map Prod.fst ↔ (m.get? name).isSome :=
  m.tree.mem_listing_iff m.place name

end Mount

end MountSync
