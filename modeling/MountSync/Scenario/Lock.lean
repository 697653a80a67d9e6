/-
Scripts that work on a lock table directly.
-/
import MountSync.Lock

namespace MountSync.Scenario

/-- One operation on a lock table, or one question about it. -/
inductive LockStep
  | acquire (name : String) (client : ClientId)
  | release (name : String) (client : ClientId)
  | delete (name : String) (client : ClientId)
  | releaseOrDelete (name : String) (client : ClientId) (present : Bool)
  | isOwner (name : String) (client : ClientId)
  | ownerOf (name : String)
  | contains (name : String)
  | size
  | stats
  deriving DecidableEq, Repr, Inhabited

inductive LockAnswer
  | flag (b : Bool)
  | owner (client : Option ClientId)
  | size (rows : Nat)
  | stats (s : LockStats)
  deriving DecidableEq, Repr, Inhabited

/-- Plays one step. -/
def LockStep.play (t : LockTable) : LockStep → LockTable × LockAnswer
  | acquire name client => (t.acquire name client).map id .flag
  | release name client => (t.release name client).map id .flag
  | delete name client => (t.delete name client).map id .flag
  | releaseOrDelete name client present => (t.releaseOrDelete name client present).map id .flag
  | isOwner name client => (t, .flag (t.isOwner name client))
  | ownerOf name => (t, .owner (t.ownerOf name))
  | contains name => (t, .flag (t.contains name))
  | size => (t, .size t.size)
  | stats => (t, .stats t.stats)

/-- A lock row as a script sees it: the name, and the owner if there is one. -/
abbrev LockRow := String × Option ClientId

/-- The rows for those of the given names that have one. -/
def lockRows (t : LockTable) (names : List String) : List LockRow :=
  names.filterMap fun name => (t.rows.get? name).map fun owner => (name, owner)

/-- Plays steps one after another and notes, after each, the answer and the rows of `names`. -/
def playLocks (names : List String) :
    LockTable → List LockStep → LockTable × List (LockAnswer × List LockRow)
  | t, [] => (t, [])
  | t, step :: rest =>
    let (t, answer) := step.play t
    let (last, notes) := playLocks names t rest
    (last, (answer, lockRows t names) :: notes)

end MountSync.Scenario
