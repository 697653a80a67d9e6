/-
Where a path leads that begins in a mount.

A path is looked up in the tree of files, and a link in the mount can lead out of it.  The
text of the path, that of the mount included, must not be too long.
-/
import MountSync.Mount.Basic

namespace MountSync.Mount

/-- The longest path, in bytes, that is looked up. -/
def pathLimit : Nat := 4095

/-- What is at the end of a path.  It begins in the mount, unless it is absolute. -/
def find (m : Mount) (path : String) : Except IoFault FileTree.Destination :=
  let size := path.utf8ByteSize + if isAbsolute path then 0 else m.pathSize
  if path.toList.contains '\x00' then .error .zeroInName
  else if size > pathLimit then .error .nameTooLong
  else m.tree.find m.place path

/-- Where a path leads, and what is there. -/
def locate (m : Mount) (path : String) : Except IoFault (Place × Node) :=
  match m.find path with
  | .ok (.found place node) => .ok (place, node)
  | .ok (.vacancy _ _) => .error .noSuchFile
  | .error fault => .error fault

/-- Whether there is anything where a path leads, or why this cannot be told. -/
def tryExists (m : Mount) (path : String) : Except IoFault Bool :=
  match m.locate path with
  | .ok _ => .ok true
  | .error .noSuchFile => .ok false
  | .error fault => .error fault

/-- Whether there is anything where a path leads; what cannot be told counts as `fallback`. -/
def existsOr (fallback : Bool) (m : Mount) (path : String) : Bool :=
  match m.tryExists path with
  | .ok answer => answer
  | .error _ => fallback

end MountSync.Mount
