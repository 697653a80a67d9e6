/-
Where a path leads in a tree of files.

Going along a path, component by component, one either gets further or meets a link, which
says where to go on and along which components.  Only so many links are followed on the way,
all together, which stops those that lead in a circle.  Two dots lead to the directory that
one has arrived in, whatever way one came.
-/
import MountSync.FileTree.Basic

namespace MountSync

/-- Cuts a path at its separators. -/
def pathComponents : List Char → List (List Char)
  | [] => [[]]
  | c :: rest =>
    if c = '/' then [] :: pathComponents rest
    else match pathComponents rest with
      | [] => [[c]]
      | first :: others => (c :: first) :: others

/-- Whether a component means the directory that it stands in. -/
def staysPut (component : List Char) : Bool := component = [] ∨ component = ['.']

def isAbsolute (path : String) : Bool := path.toList.head? = some '/'

/-- Where a path begins that is written in a directory. -/
def Place.start (directory : Place) (path : String) : Place :=
  if isAbsolute path then [] else directory

namespace FileTree

/-- The longest name, in bytes, that an entry can have. -/
def nameLimit : Nat := 255

/-- Whether a directory belongs to the kernel, which lets nobody make files there and has no
entry for a name that is too long. -/
def isReserved (directory : Place) : Bool :=
  [.text "proc"].isSuffixOf directory || [.text "sys"].isSuffixOf directory

/-- How many links are followed on the way along one path. -/
def linkLimit : Nat := 40

/-- What one meets on going one component further. -/
inductive Encounter
  | place (p : Place)
  /-- A link, which has yet to be followed: it goes on at a place, along components. -/
  | link (start : Place) (way : List (List Char))
  /-- A directory with nothing of that name. -/
  | nothing (name : String)
  | refusal (fault : IoFault)
  deriving DecidableEq, Repr, Inhabited

/-- What a name stands for in a directory. -/
def named (t : FileTree) (directory : Place) (name : String) : Encounter :=
  match t.get? (.text name :: directory) with
  | none => .nothing name
  | some (.link target) => .link (directory.start target) (pathComponents target.toList)
  | some (.jump target) => .link target []
  | some _ => .place (.text name :: directory)

/-- Goes one component further.  The root is the directory that it is in itself. -/
def next (t : FileTree) (place : Place) (component : List Char) : Encounter :=
  match t.enter place with
  | .error fault => .refusal fault
  | .ok () =>
    if staysPut component then .place place
    else if component = ['.', '.'] then .place place.tail
    else if (String.ofList component).utf8ByteSize > nameLimit && !isReserved place then
      .refusal .nameTooLong
    else t.named place (String.ofList component)

/-- What is at the end of a path. -/
inductive Destination
  | found (place : Place) (node : Node)
  /-- Nothing yet, but the directory is there in which a file of that name can be made. -/
  | vacancy (directory : Place) (name : String)
  deriving DecidableEq, Repr, Inhabited

/-- Goes along components, one after another.  `onLink` says what becomes of a link, by the
place where it goes on and the components that are then to come. -/
def along (t : FileTree) (onLink : Place → List (List Char) → Except IoFault Destination) :
    Place → List (List Char) → Except IoFault Destination
  | place, [] =>
    match t.get? place with
    | none => .error .noSuchFile
    | some node => .ok (.found place node)
  | place, component :: rest =>
    match t.next place component with
    | .place place => along t onLink place rest
    | .link start way => onLink start (way ++ rest)
    | .nothing name => if rest = [] then .ok (.vacancy place name) else .error .noSuchFile
    | .refusal fault => .error fault

/-- Goes along components and follows at most `links` links on the way. -/
def walk (t : FileTree) : (links : Nat) → Place → List (List Char) → Except IoFault Destination
  | 0 => t.along fun _ _ => .error .tooManyLinks
  | links + 1 => t.along (walk t links)

/-- What is at the end of a path that is written in a directory. -/
def find (t : FileTree) (directory : Place) (path : String) : Except IoFault Destination :=
  t.walk linkLimit (directory.start path) (pathComponents path.toList)

end FileTree

end MountSync
