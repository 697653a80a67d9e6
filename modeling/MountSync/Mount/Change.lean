/-
What changes a mount.

A transfer writes to a temporary file and gives it its name only when everything has
arrived, so the file under that name changes in one step or not at all.  The temporary
entry marks the transfer; its bytes stay with the call until the entry is given its name.
The name of a temporary file is a random one, so nothing else that is done under a name
reaches it; it goes only with the whole mount.
-/
import MountSync.Mount.Lookup

namespace MountSync.Mount

/-- Puts a node under a name, in place of the one that was there. -/
def put (m : Mount) (name : EntryName) (node : Node) : Mount :=
  m.withTree (m.tree.put (m.placeOf name) node)

/-- Drops the entry of a name. -/
def drop (m : Mount) (name : EntryName) : Mount := m.withTree (m.tree.drop (m.placeOf name))

@[simp] theorem get?_put_self (m : Mount) (name : EntryName) (node : Node) :
    (m.put name node).get? name = some node := m.tree.get?_put_self _ node

theorem get?_put_ne (m : Mount) {name other : EntryName} (h : other ≠ name) (node : Node) :
    (m.put name node).get? other = m.get? other :=
  m.tree.get?_put_ne (fun same => h (m.placeOf_injective same)) node

@[simp] theorem get?_drop_self (m : Mount) (name : EntryName) : (m.drop name).get? name = none :=
  m.tree.get?_drop_self _

theorem get?_drop_ne (m : Mount) {name other : EntryName} (h : other ≠ name) :
    (m.drop name).get? other = m.get? other :=
  m.tree.get?_drop_ne fun same => h (m.placeOf_injective same)

/-- A name for a temporary file, which no entry has. -/
def freshPartial (m : Mount) : EntryName := m.tree.freshName m.place partialPrefix partialSuffix

theorem get?_freshPartial (m : Mount) : m.get? m.freshPartial = none :=
  m.tree.get?_freshName ..

/-- Makes the temporary file of a transfer and tells its name. -/
def createPartial (m : Mount) (now : UnixTime) : Except IoFault (Mount × EntryName) :=
  match m.enter with
  | .error fault => .error fault
  | .ok () =>
    .ok (m.withTree (m.tree.create (m.placeOf m.freshPartial) [] (.atSecond now)), m.freshPartial)

/-- Why there is nothing under a name: there is no directory, or there is no such entry. -/
def absence (m : Mount) : IoFault :=
  match m.enter with
  | .error fault => fault
  | .ok () => .noSuchFile

/-- Gives a temporary file the name it was written for, with the content that has arrived.
Whatever has that name is replaced, a link itself and not what it leads to; only a directory
stays. -/
def install (m : Mount) (temporary : EntryName) (name : String) (content : Bytes)
    (written : UnixTime) : Except IoFault Mount :=
  match m.get? temporary with
  | some (.file f) =>
    if m.get? (.text name) = some .directory then .error .isDirectory
    else
      let f : File := { f with content, modified := .atSecond written }
      .ok ((m.drop temporary).put (.text name) (.file f))
  | _ => .error m.absence

/-- Removes the entry of a name, a link itself and not what it leads to. -/
def removeFile (m : Mount) (name : String) : Except IoFault Mount :=
  match m.get? (.text name) with
  | none => .error m.absence
  | some .directory => .error .isDirectory
  | some _ => .ok (m.drop (.text name))

/-! ### Changes that are no transfers -/

/-- Changes the file that a path leads to in place, if it leads to one. -/
def changeAt (m : Mount) (path : String) (change : File → File) : Mount :=
  match m.locate path with
  | .ok (place, _) => m.withTree (m.tree.changeFile place change)
  | .error _ => m

/-- Writes a whole file: over the one that a path leads to, or as a new one where the path
ends. -/
def writeFile (m : Mount) (path : String) (content : Bytes) (modified : Timestamp) : Mount :=
  match m.find path with
  | .ok (.found place _) =>
    m.withTree (m.tree.changeFile place fun f => { f with content, modified })
  | .ok (.vacancy directory name) =>
    if FileTree.isReserved directory then m
    else m.withTree (m.tree.create (.text name :: directory) content modified)
  | .error _ => m

/-- The first `length` bytes of a content that goes on with zeros. -/
def cutTo (length : Nat) (content : Bytes) : Bytes :=
  content.take length ++ List.replicate (length - content.length) 0

/-- Whether a path can only be that of a directory: it ends with a separator, or it is empty
and so means the mount itself. -/
def meansDirectory (path : String) : Bool := path.toList.getLast?.all (· = '/')

/-- The place of the entry that a path names, whether or not there is one.  The directory that
it is in has to be there. -/
def entryPlace? (m : Mount) (path : String) : Option Place :=
  match (pathComponents path.toList).reverse.dropWhile (· = []) with
  | [] => if isAbsolute path then none else some m.place
  | last :: before =>
    match m.tree.walk FileTree.linkLimit (m.place.start path) before.reverse with
    | .ok (.found directory .directory) =>
      let name := String.ofList last
      if staysPut last || name = ".." || name.utf8ByteSize > FileTree.nameLimit then none
      else some (.text name :: directory)
    | _ => none

/-- Makes an entry that is no file, unless there is something of that name. -/
def makeEntry (m : Mount) (path : String) (node : Node) : Mount :=
  match m.entryPlace? path with
  | none => m
  | some place =>
    if (m.tree.get? place).isSome || FileTree.isReserved place.tail
        || (meansDirectory path && node ≠ .directory) then m
    else m.withTree (m.tree.put place node)

/-- Removes an entry with everything below it. -/
def removeEntry (m : Mount) (path : String) : Mount :=
  match m.entryPlace? path with
  | none => m
  | some place =>
    if meansDirectory path && m.tree.get? place ≠ some .directory then m
    else m.withTree (m.tree.prune place)

/-- Removes the directory with everything in it. -/
def remove (m : Mount) : Mount := if m.isPresent then m.withTree (m.tree.prune m.place) else m

end MountSync.Mount
