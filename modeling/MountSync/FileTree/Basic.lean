/-
A tree of files.

Every node has a place, and a tree is a table of what is at each place: looking into a
directory, changing one node, and what all the others have to do with it are matters of
places alone.  The operations are described by what they do to `get?`.

A file has an identity of its own, its inode, which stays when its content is changed in
place and which tells it from another file that comes to have its name.
-/
import MountSync.Failure
import MountSync.FileTree.NameHash
import MountSync.Table

namespace MountSync

/-- The name of an entry in a directory. -/
inductive EntryName
  | text (name : String)
  /-- A name that is not UTF-8. -/
  | binary (name : Bytes)
  /-- A name with a random part between two texts.  The number stands for what is random
  in it.  Nobody can guess such a name, so nothing that is written down leads to it. -/
  | random (before : String) (number : Nat) (after : String)
  deriving DecidableEq, Repr, Inhabited

namespace EntryName

/-- The characters of the random part of a name. -/
def randomSize : Nat := 6

/-- The bytes of a name. -/
def size : EntryName → Nat
  | .text name => name.utf8ByteSize
  | .binary name => name.length
  | .random before _ after => before.utf8ByteSize + randomSize + after.utf8ByteSize

/-- The bytes of a name as far as they are known. -/
def bytes : EntryName → Bytes
  | .text name => name.toUTF8.data.toList
  | .binary name => name
  | .random before number after => (before ++ toString number ++ after).toUTF8.data.toList

/-- What is random in a name, if anything is. -/
def number : EntryName → Nat
  | .random _ number _ => number
  | _ => 0

end EntryName

/-- Where something is: its name, then the name of the directory that it is in, and so on up
to the root, whose place is empty. -/
abbrev Place := List EntryName

/-- The bytes that the path to a place takes up. -/
def Place.size : Place → Nat
  | [] => 0
  | name :: directory => size directory + name.size + 1

/-- A time on a file: whole seconds, and what is left of one. -/
structure Timestamp where
  seconds : UnixTime
  nanoseconds : Fin 1000000000
  deriving DecidableEq, Repr, Inhabited

/-- The time that lies some nanoseconds after a second.  As many whole seconds as there are
in them are carried over. -/
def Timestamp.after (second : Int) (nanoseconds : Nat) : Timestamp where
  seconds := .ofInt (second + (nanoseconds / 1000000000 : Nat))
  nanoseconds := ⟨nanoseconds % 1000000000, Nat.mod_lt _ (by decide)⟩

/-- The time at which a second begins. -/
def Timestamp.atSecond (second : UnixTime) : Timestamp := ⟨second, ⟨0, by decide⟩⟩

/-- The time that records and listings show: whole seconds, and the start of 1970 for
anything before it. -/
def Timestamp.unixTime (t : Timestamp) : UnixTime := if t.seconds < 0 then 0 else t.seconds

/-- What is told of a file whose content is made up only when it is read. -/
structure Facade where
  /-- A size, which says nothing of the content. -/
  size : Nat
  /-- Why the file cannot be read, if it cannot. -/
  fault : Option IoFault
  deriving DecidableEq, Repr, Inhabited

/-- A regular file. -/
structure File where
  content : Bytes
  modified : Timestamp
  inode : Nat
  /-- Absent from a file that keeps its content. -/
  facade : Option Facade := none
  deriving DecidableEq, Repr, Inhabited

namespace File

/-- The size that is told of a file. -/
def size (f : File) : Nat :=
  match f.facade with
  | none => f.content.length
  | some facade => facade.size

/-- What reading a file gives. -/
def read (f : File) : Except IoFault Bytes :=
  match f.facade with
  | some ⟨_, some fault⟩ => .error fault
  | _ => .ok f.content

end File

/-- What can be at a place. -/
inductive Node
  | directory
  | file (f : File)
  /-- A symbolic link; its target is read from the directory that the link is in. -/
  | link (target : String)
  /-- A link that leads to a place and not along a path. -/
  | jump (target : Place)
  /-- Something else, such as a device.  The content is what reading it gives, if that ends. -/
  | special (content : Option Bytes)
  deriving DecidableEq, Repr, Inhabited

/-- Changes a file and nothing else. -/
def Node.mapFile (change : File → File) : Node → Node
  | .file f => .file (change f)
  | node => node

structure FileTree where
  nodes : Table Place Node
  /-- The identity that the next new file gets. -/
  nextInode : Nat
  deriving DecidableEq, Repr, Inhabited

namespace FileTree

/-- A tree with nothing below its root. -/
def bare : FileTree := ⟨Table.empty.insert [] .directory, 0⟩

/-- What is at a place, without following links. -/
def get? (t : FileTree) (p : Place) : Option Node := t.nodes.get? p

/-- What is in a directory, in no order that anybody gets to see. -/
def children (t : FileTree) (p : Place) : List (EntryName × Node) :=
  t.nodes.rows.filterMap fun row =>
    match row.1 with
    | [] => none
    | name :: directory => if directory = p then some (name, row.2) else none

/-- What is in a directory, in the order in which the directory gives it. -/
def listing (t : FileTree) (p : Place) : List (EntryName × Node) :=
  let hashed := (t.children p).map fun e => (nameHash e.1.bytes, e)
  (hashed.mergeSort fun a b => decide (a.1 ≤ b.1)).map Prod.snd

/-- Whether there is a directory at a place, or why one cannot go there. -/
def enter (t : FileTree) (p : Place) : Except IoFault Unit :=
  match t.get? p with
  | none => .error .noSuchFile
  | some .directory => .ok ()
  | some _ => .error .notDirectory

/-- Puts a node at a place, instead of the one that was there. -/
def put (t : FileTree) (p : Place) (node : Node) : FileTree :=
  { t with nodes := t.nodes.insert p node }

/-- Drops a node that has nothing below it. -/
def drop (t : FileTree) (p : Place) : FileTree := { t with nodes := t.nodes.erase p }

/-- Drops a node and everything below it. -/
def prune (t : FileTree) (p : Place) : FileTree :=
  { t with nodes := t.nodes.keep fun q => !p.isSuffixOf q }

/-- Makes a new file at a place. -/
def create (t : FileTree) (p : Place) (content : Bytes) (modified : Timestamp) : FileTree :=
  { t.put p (.file { content, modified, inode := t.nextInode }) with
    nextInode := t.nextInode + 1 }

/-- Changes the file at a place, if there is one. -/
def changeFile (t : FileTree) (p : Place) (change : File → File) : FileTree :=
  { t with nodes := t.nodes.map fun q node => if q = p then node.mapFile change else node }

/-- Changes every file that is in one of the given directories, and not further below. -/
def changeFilesIn (t : FileTree) (directories : List Place) (change : File → File) : FileTree :=
  { t with nodes := t.nodes.map fun p node =>
      match p with
      | [] => node
      | _ :: directory => if directory ∈ directories then node.mapFile change else node }

/-! ### What the operations do to `get?` -/

@[simp] theorem get?_put_self (t : FileTree) (p : Place) (node : Node) :
    (t.put p node).get? p = some node := Table.get?_insert_self ..

theorem get?_put_ne (t : FileTree) {p q : Place} (h : q ≠ p) (node : Node) :
    (t.put p node).get? q = t.get? q := Table.get?_insert_ne _ h node

@[simp] theorem get?_drop_self (t : FileTree) (p : Place) : (t.drop p).get? p = none :=
  Table.get?_erase_self ..

theorem get?_drop_ne (t : FileTree) {p q : Place} (h : q ≠ p) :
    (t.drop p).get? q = t.get? q := Table.get?_erase_ne _ h

@[simp] theorem get?_create_self (t : FileTree) (p : Place) (content : Bytes)
    (modified : Timestamp) :
    (t.create p content modified).get? p
      = some (.file { content, modified, inode := t.nextInode }) :=
  t.get?_put_self p _

theorem get?_create_ne (t : FileTree) {p q : Place} (h : q ≠ p) (content : Bytes)
    (modified : Timestamp) : (t.create p content modified).get? q = t.get? q :=
  t.get?_put_ne h _

/-- A name has a row in a directory exactly if there is something at its place. -/
theorem mem_children_iff (t : FileTree) (p : Place) (name : EntryName) :
    name ∈ (t.children p).map Prod.fst ↔ (t.get? (name :: p)).isSome := by
  rw [get?, ← Table.mem_keys_iff, Table.keys]
  simp only [children, List.mem_map, List.mem_filterMap]
  constructor
  · rintro ⟨child, ⟨row, hrow, hchild⟩, rfl⟩
    refine ⟨row, hrow, ?_⟩
    split at hchild
    · exact nomatch hchild
    · rename_i n d hplace
      split at hchild
      · rename_i hd
        cases hchild
        rw [hplace, hd]
      · exact nomatch hchild
  · rintro ⟨row, hrow, hplace⟩
    refine ⟨(name, row.2), ⟨row, hrow, ?_⟩, rfl⟩
    rw [hplace]
    simp

/-- A listing has the entries of the directory, and each as often as it is there. -/
theorem listing_perm (t : FileTree) (p : Place) : (t.listing p).Perm (t.children p) := by
  have h := (List.mergeSort_perm ((t.children p).map fun e => (nameHash e.1.bytes, e))
    fun a b => decide (a.1 ≤ b.1)).map Prod.snd
  rw [List.map_map] at h
  exact h.trans (by simp [Function.comp_def])

/-- A name has a row in the listing of a directory exactly if there is something at its
place. -/
theorem mem_listing_iff (t : FileTree) (p : Place) (name : EntryName) :
    name ∈ (t.listing p).map Prod.fst ↔ (t.get? (name :: p)).isSome :=
  ((t.listing_perm p).map Prod.fst).mem_iff.trans (t.mem_children_iff p name)

/-! ### Names that nothing has -/

/-- A number greater than that of any random name in a list. -/
def freshNumber (names : List EntryName) : Nat :=
  names.foldr (fun name least => max (name.number + 1) least) 0

theorem number_lt_freshNumber {names : List EntryName} {name : EntryName} (h : name ∈ names) :
    name.number < freshNumber names := by
  induction names with
  | nil => exact nomatch h
  | cons first rest ih =>
    rw [freshNumber, List.foldr_cons]
    rcases List.mem_cons.1 h with rfl | h
    · exact Nat.lt_of_lt_of_le (Nat.lt_succ_self _) (Nat.le_max_left ..)
    · exact Nat.lt_of_lt_of_le (ih h) (Nat.le_max_right ..)

/-- A name with a random part that nothing in a directory has. -/
def freshName (t : FileTree) (p : Place) (before after : String) : EntryName :=
  .random before (freshNumber ((t.children p).map Prod.fst)) after

theorem get?_freshName (t : FileTree) (p : Place) (before after : String) :
    t.get? (t.freshName p before after :: p) = none := by
  by_cases h : (t.get? (t.freshName p before after :: p)).isSome
  · exact absurd (number_lt_freshNumber ((t.mem_children_iff p _).2 h)) (Nat.lt_irrefl _)
  · simpa using h

end FileTree

end MountSync
