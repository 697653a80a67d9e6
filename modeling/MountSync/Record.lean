/-
What is known about a file without its content: the record of a manifest, and the part
of it that decides a conflict.
-/
import MountSync.Checksum

namespace MountSync

/-- Whole seconds since the start of 1970. -/
abbrev UnixTime := Int64

/-- The part of a record that decides a conflict. -/
structure FileVersion where
  checksum : UInt32
  mtime : UnixTime
  deriving DecidableEq, Repr, Inhabited

/-- One entry of a manifest. -/
structure FileRecord where
  name : String
  size : UInt64
  checksum : UInt32
  mtime : UnixTime
  /-- When the file was created, as far as the platform tells. -/
  ctime : UnixTime
  deriving DecidableEq, Repr, Inhabited

/-- One entry of a listing, which is made without reading any content. -/
structure ListEntry where
  name : String
  mtime : UnixTime
  deriving DecidableEq, Repr, Inhabited

/-- The version that a record describes. -/
def FileRecord.version (r : FileRecord) : FileVersion := ⟨r.checksum, r.mtime⟩

end MountSync
