/-
Scripts that work on a mount directly.

The steps are what a person does to files behind the back of the library, and a look at the
directory as it is, with everything that listings hide.

The mounts of a script are in a scratch directory, which was made for it under a random name
among the temporary files of the machine.
-/
import MountSync.Mount.Change
import MountSync.Mount.Listing
import MountSync.Scenario.Machine
import MountSync.Text.Utf8

namespace MountSync.Scenario

/-- The directory in which the mounts of a script are. -/
def scratch : Place := [.random ".tmp" 0 "", .text "tmp"]

/-- The tree of files before a script begins. -/
def scratchTree (now : UnixTime) : FileTree := (FileTree.standardAt now).put scratch .directory

/-- The place of a mount of a script. -/
def mountPlace (name : String) : Place := .text name :: scratch

/-- A mount that is empty and alone. -/
def emptyMount (now : UnixTime) (name : String) : Mount := .empty (scratchTree now) (mountPlace name)

inductive FileStep
  /-- Writes a whole file, through a link if there is one. -/
  | write (name : String) (content : Bytes) (modified : Timestamp)
  /-- Nothing is written if there is nothing to add. -/
  | append (name : String) (content : Bytes)
  /-- Cuts a file, or fills it up with zeros. -/
  | truncate (name : String) (length : Nat)
  | touch (name : String) (modified : Timestamp)
  | makeDirectory (name : String)
  | link (name target : String)
  /-- Removes an entry of any kind. -/
  | remove (name : String)
  /-- Writes a file under a name that need not be text. -/
  | writeBinaryName (name content : Bytes)
  | removeMount
  | listing
  deriving DecidableEq, Repr, Inhabited

/-- One entry of a directory as it is. -/
inductive DirectoryRow
  | file (name : String) (content : Bytes) (mtime : UnixTime)
  | directory (name : String)
  | link (name : String)
  deriving DecidableEq, Repr, Inhabited

inductive FileAnswer
  | done
  /-- What is in the mount, unless the mount is gone. -/
  | listing (rows : Option (List DirectoryRow))
  deriving DecidableEq, Repr, Inhabited

/-- The name of an entry as people see it. -/
def shownName : EntryName → String
  | .text name => name
  | .binary name => Text.lossy name
  | .random before number after => before ++ toString number ++ after

/-- What is shown of an entry, unless it is of a kind that no mount holds. -/
def rowOf (name : EntryName) : Node → Option DirectoryRow
  | .file f => some (.file (shownName name) f.content f.modified.unixTime)
  | .directory => some (.directory (shownName name))
  | .link _ | .jump _ => some (.link (shownName name))
  | .special _ => none

/-- Everything in a mount, by the name that is shown.  Entries whose names are shown alike stay
in the order of the directory. -/
def directoryRows (m : Mount) : Option (List DirectoryRow) :=
  if m.isPresent then
    some ((m.entries.mergeSort fun a b => decide (shownName a.1 ≤ shownName b.1)).filterMap
      fun e => rowOf e.1 e.2)
  else none

/-- The time on files that a script writes under binary names. -/
def binaryNameTime : Timestamp := .atSecond 1000000000

/-- The place of a file whose name is given by bytes that are not text.  Up to the last
separator they are the path of a directory. -/
def binaryPlace? (m : Mount) (name : Bytes) : Option Place :=
  let last := (name.reverse.takeWhile (· ≠ 47)).reverse
  match Text.ofUtf8? (name.take (name.length - last.length)) with
  | none => none
  | some path =>
    match m.find path with
    | .ok (.found directory .directory) =>
      if name.contains 0 || last.length > FileTree.nameLimit then none
      else some (.binary last :: directory)
    | _ => none

/-- Writes a whole file under a name given by its bytes: like any other if they are text. -/
def writeBinaryName (m : Mount) (name content : Bytes) : Mount :=
  match Text.ofUtf8? name with
  | some text => m.writeFile text content binaryNameTime
  | none =>
    match binaryPlace? m name with
    | none => m
    | some place => m.withTree (m.tree.create place content binaryNameTime)

/-- What a step makes of a mount. -/
def FileStep.change (m : Mount) (now : UnixTime) : FileStep → Mount
  | write name content modified => m.writeFile name content modified
  | append name content =>
    if content = [] then m
    else m.changeAt name fun f =>
      { f with content := f.content ++ content, modified := .atSecond now }
  | truncate name length =>
    m.changeAt name fun f =>
      { f with content := Mount.cutTo length f.content, modified := .atSecond now }
  | touch name modified => m.changeAt name fun f => { f with modified }
  | makeDirectory name => m.makeEntry name .directory
  | link name target => m.makeEntry name (.link target)
  | remove name => m.removeEntry name
  | writeBinaryName name content => Scenario.writeBinaryName m name content
  | removeMount => m.remove
  | listing => m

/-- Plays one step. -/
def FileStep.play (m : Mount) (now : UnixTime) (step : FileStep) : Mount × FileAnswer :=
  match step with
  | .listing => (m, .listing (directoryRows m))
  | step => (step.change m now, .done)

/-! ### The clock of a script

Files that were written while a step was played carry the time of day.  So that answers can
be compared it is a second that the script does not speak of, and after each step it is
replaced by a time that counts the steps, on the files that are entries of a mount.  Those in
directories of a mount, or outside, keep it. -/

/-- The first of some seconds, beginning with `second`, that is not among those spoken of. -/
def firstUnspoken (spoken : List Int) : (seconds : Nat) → (second : Int) → Int
  | 0, second => second
  | seconds + 1, second =>
    if second ∈ spoken then firstUnspoken spoken seconds (second + 1) else second

/-- The time of day while a script is played that speaks of some times. -/
def timeOfDay (spoken : List Int) : UnixTime :=
  .ofInt (firstUnspoken spoken spoken.length 1794913517)

/-- The time on files written by step number `step`. -/
def stepTime (step : Nat) : UnixTime := .ofNat (2000000000 + step)

/-- Replaces the time of day on the files in the mounts at the given places. -/
def restamp (t : FileTree) (now : UnixTime) (mounts : List Place) (step : Nat) : FileTree :=
  t.changeFilesIn mounts fun f =>
    if f.modified.seconds = now then { f with modified := .atSecond (stepTime step) } else f

/-- Replaces the time of day on the files in a mount. -/
def restampMount (m : Mount) (now : UnixTime) (step : Nat) : Mount :=
  m.withTree (restamp m.tree now [m.place] step)

end MountSync.Scenario
