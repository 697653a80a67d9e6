/-
Paths as a watcher reports them.

A path is compared part by part, so repeated separators, a separator at the end and single
dots in between make no difference; two dots stay, because what they lead to depends on the
links on the way.  Where that matters a path is looked up in the tree of files.
-/
import MountSync.FileTree.Lookup

namespace MountSync.Watch

inductive PathPart
  /-- The separator at the beginning of an absolute path. -/
  | root
  /-- A single dot at the beginning of a relative path. -/
  | here
  /-- Two dots. -/
  | up
  | name (n : String)
  deriving DecidableEq, Repr, Inhabited

/-- A path, part by part. -/
structure Path where
  parts : List PathPart
  /-- Whether a separator at the end asks for a directory. -/
  closed : Bool
  deriving DecidableEq, Repr, Inhabited

namespace Path

/-- What a piece of a path contributes after its beginning. -/
def partOf (piece : List Char) : Option PathPart :=
  if piece = [] ∨ piece = ['.'] then none
  else if piece = ['.', '.'] then some .up
  else some (.name (String.ofList piece))

/-- What the first piece of a path contributes.  It is empty if the path is absolute. -/
def firstPart (piece : List Char) : Option PathPart :=
  if piece = [] then some .root
  else if piece = ['.'] then some .here
  else partOf piece

/-- Reads a path. -/
def ofText (text : String) : Path :=
  match pathComponents text.toList with
  | first :: rest =>
    if text = "" then ⟨[], false⟩
    else ⟨(firstPart first).toList ++ rest.filterMap partOf, rest.getLast?.any staysPut⟩
  | [] => ⟨[], false⟩

/-- The path without its last part.  The root and the empty path have none. -/
def parent? (p : Path) : Option Path :=
  match p.parts.getLast? with
  | none | some .root => none
  | some _ => some ⟨p.parts.dropLast, false⟩

/-- The last part, if it is a name. -/
def fileName? (p : Path) : Option String :=
  match p.parts.getLast? with
  | some (.name n) => some n
  | _ => none

/-- The component that leads along a part. -/
def componentOf : PathPart → List Char
  | .root => []
  | .here => ['.']
  | .up => ['.', '.']
  | .name n => n.toList

/-- The place that a path leads to.  A relative one begins in `current`, and the empty path
leads nowhere. -/
def locate (t : FileTree) (current : Place) (p : Path) : Option Place :=
  let start := if p.parts.head? = some .root then [] else current
  let way := p.parts.map componentOf ++ if p.closed then [[]] else []
  match p.parts, t.walk FileTree.linkLimit start way with
  | _ :: _, .ok (.found place _) => some place
  | _, _ => none

/-- Whether two paths are the same directory: written the same, or leading to the same. -/
def isSame (a : Path) (t : FileTree) (current : Place) (b : Path) : Bool :=
  a.parts = b.parts
    || ((a.locate t current).isSome && a.locate t current = b.locate t current)

end Path

end MountSync.Watch
