/-
Names that a call may use.

A mount is one flat directory.  A name is accepted if it is a single entry of it and cannot
lead anywhere else.  Transfers that are under way write to temporary files inside the mount;
those go by names of their own, which no call may use and no listing shows.
-/
import MountSync.Failure

namespace MountSync.Mount

/-- Temporary files of transfers begin with this. -/
def partialPrefix : String := ".dfsync-"

/-- Temporary files of transfers end with this. -/
def partialSuffix : String := ".part"

/-- Whether a name is that of a temporary file. -/
def isPartial (name : String) : Bool :=
  partialPrefix.toList.isPrefixOf name.toList && partialSuffix.toList.isSuffixOf name.toList

/-- Whether a call may use a name. -/
def accepts (name : String) : Bool :=
  name != "" && name != "." && name != ".." && !name.toList.contains '/'
    && !name.toList.contains '\\' && !name.toList.contains '\x00' && !isPartial name

/-- Refuses a name that no call may use. -/
def checkName (name : String) : Except Failure Unit :=
  if accepts name then .ok () else .error (.invalidName name)

/-- The path of an entry.  A separator is put between the two unless the path of the mount
is empty or ends with one. -/
def joinPath (mount name : String) : String :=
  if mount = "" || mount.toList.getLast? = some '/' then mount ++ name else mount ++ "/" ++ name

/-- The path of the file that a name stands for. -/
def resolve (mount name : String) : Except Failure String :=
  match checkName name with
  | .error failure => .error failure
  | .ok () => .ok (joinPath mount name)

end MountSync.Mount
