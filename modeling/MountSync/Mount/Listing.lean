/-
What a mount holds.

Records are made from the files each time they are asked for; nothing is remembered, so a
manifest is never older than the moment it was made.  A manifest and a listing show the
regular files, those included that a link leads to, under the names that are text and not
those of temporary files.
-/
import MountSync.Mount.Lookup

namespace MountSync.Mount

/-- The record of a file under a name, with the content that was read.  The platform tells no
time of creation, so that of the last change stands for it. -/
def recordOf (name : String) (f : File) (content : Bytes) : FileRecord where
  name := name
  size := .ofNat f.size
  checksum := fileChecksum content
  mtime := f.modified.unixTime
  ctime := f.modified.unixTime

/-- The record of the regular file under a name, if there is one. -/
def statFile (m : Mount) (name : String) : Except Failure (Option FileRecord) :=
  match checkName name with
  | .error failure => .error failure
  | .ok () =>
    match m.locate name with
    | .ok (_, .file f) =>
      match f.read with
      | .error fault => .error (.io fault)
      | .ok content => .ok (some (recordOf name f content))
    | .ok _ => .ok none
    | .error .noSuchFile => .ok none
    | .error fault => .error (.io fault)

/-- The names in the mount as the directory gives them. -/
def readDirectory (m : Mount) : Except IoFault (List EntryName) :=
  match m.enter with
  | .error fault => .error fault
  | .ok () => .ok (m.entries.map Prod.fst)

/-- The regular file that an entry of the directory stands for, unless the entry is hidden
from listings. -/
def listed? (m : Mount) : EntryName → Option (String × File)
  | .text name =>
    if isPartial name then none
    else match m.locate name with
      | .ok (_, .file f) => some (name, f)
      | _ => none
  | .binary _ | .random _ _ _ => none

/-- The regular files of the mount with their names, in the order of the directory. -/
def regularFiles (m : Mount) : Except IoFault (List (String × File)) :=
  match m.readDirectory with
  | .error fault => .error fault
  | .ok names => .ok (names.filterMap m.listed?)

/-- The records of the given names.  A name that has no file any more is passed over; one
that cannot be looked at ends it. -/
def statAll (m : Mount) : List String → Except Failure (List FileRecord)
  | [] => .ok []
  | name :: rest =>
    match m.statFile name with
    | .error failure => .error failure
    | .ok found =>
      match statAll m rest with
      | .error failure => .error failure
      | .ok records => .ok (found.toList ++ records)

/-- The manifest: a record of every regular file, by name. -/
def enumerate (m : Mount) : Except Failure (List FileRecord) :=
  match m.regularFiles with
  | .error fault => .error (.io fault)
  | .ok files =>
    match m.statAll (files.map Prod.fst) with
    | .error failure => .error failure
    | .ok records => .ok (records.mergeSort fun a b => decide (a.name ≤ b.name))

/-- The listing: name and time of every regular file, by name. -/
def list (m : Mount) : Except Failure (List ListEntry) :=
  match m.regularFiles with
  | .error fault => .error (.io fault)
  | .ok files =>
    .ok ((files.map fun (name, f) => ⟨name, f.modified.unixTime⟩).mergeSort
      fun a b => decide (a.name ≤ b.name))

end MountSync.Mount
