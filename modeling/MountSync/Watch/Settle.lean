/-
From events in a directory to changes of files.

An event tells that something happened to a path.  It says nothing reliable about what is
there now, so the names that were touched are collected and looked up once things have
settled: a file that is there has changed, and one that cannot be found is gone.
-/
import MountSync.Mount.Lookup
import MountSync.Watch.Path

namespace MountSync.Watch

inductive EventKind
  | create
  | modify
  | remove
  | access
  /-- Something that the platform does not tell further. -/
  | any
  /-- Something about the watch itself. -/
  | other
  deriving DecidableEq, Repr, Inhabited

/-- Whether events of a kind can mean that content has changed. -/
def EventKind.isRelevant : EventKind → Bool
  | .create | .modify | .remove | .any => true
  | .access | .other => false

structure Event where
  kind : EventKind
  paths : List Path
  deriving DecidableEq, Repr, Inhabited

/-- The name of the entry of the mount that a path means, unless it is a temporary file. -/
def entryOf (t : FileTree) (current : Place) (mount path : Path) : Option String :=
  match path.parent?, path.fileName? with
  | some parent, some name =>
    if parent.isSame t current mount && !Mount.isPartial name then some name else none
  | _, _ => none

/-- The names of the entries of the mount that an event touched. -/
def touchedNames (t : FileTree) (current : Place) (mount : Path) (e : Event) : List String :=
  if e.kind.isRelevant then e.paths.filterMap (entryOf t current mount) else []

inductive LocalChangeKind
  /-- The file is there, new or modified. -/
  | changed
  /-- The file is gone. -/
  | removed
  deriving DecidableEq, Repr, Inhabited

structure LocalChange where
  name : String
  kind : LocalChangeKind
  deriving DecidableEq, Repr, Inhabited

/-- What became of a name.  Anything but a file is none of our business; a name that cannot
be looked at counts as gone. -/
def changeOf (m : Mount) (name : String) : Option LocalChange :=
  match m.locate name with
  | .ok (_, .file _) => some ⟨name, .changed⟩
  | .ok _ => none
  | .error _ => some ⟨name, .removed⟩

/-- What became of names that were touched, in their order.  Each of them is looked up in the mount
as it is by then. -/
def settleEach (found : String → Mount) (names : List String) : List LocalChange :=
  names.filterMap fun name => changeOf (found name) name

/-- What became of names in a mount that stays as it is while they are looked up. -/
def settle (m : Mount) (names : List String) : List LocalChange := settleEach (fun _ => m) names

end MountSync.Watch
