/-
Which of two copies of a file is authoritative.

Two decisions look at the same pair of versions from different ends.  `resolve` is
asked by whoever receives a transfer, before a byte moves; `plan` is asked by a client
that holds the server's manifest and has to choose a transfer.
-/
import MountSync.Record

namespace MountSync

/-- Which way a transfer moves the content. -/
inductive Direction
  /-- From a client to the server. -/
  | store
  /-- From the server to a client. -/
  | fetch
  deriving DecidableEq, Repr, Inhabited

/-- What becomes of a transfer. -/
inductive Resolution
  | proceed
  /-- Both copies hold the same content. -/
  | alreadySynced
  /-- The destination was modified after the source. -/
  | staleSource
  deriving DecidableEq, Repr, Inhabited

/-- Decides a transfer onto `destination`.  Equal checksums end it whatever the times say,
a strictly newer destination is never overwritten, and a tie goes to the source.  The
direction is stated by the caller and does not weigh in. -/
def resolve (_direction : Direction) (destination : Option FileVersion) (source : FileVersion) :
    Resolution :=
  match destination with
  | none => .proceed
  | some d =>
    if d.checksum = source.checksum then .alreadySynced
    else if source.mtime < d.mtime then .staleSource
    else .proceed

/-- What a client does about one entry of a manifest. -/
inductive SyncAction
  | fetch
  | store
  /-- Nothing: the copies are the same. -/
  | skip
  /-- Different content under one modification time, which a person has to look at. -/
  | anomaly
  deriving DecidableEq, Repr, Inhabited

/-- Decides how a client brings its copy and the server's together. -/
def plan (mine : Option FileRecord) (remote : FileRecord) : SyncAction :=
  match mine with
  | none => .fetch
  | some mine =>
    if mine.checksum = remote.checksum then .skip
    else if remote.mtime < mine.mtime then .store
    else if mine.mtime < remote.mtime then .fetch
    else .anomaly

end MountSync
