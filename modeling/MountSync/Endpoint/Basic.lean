/-
A served mount.

An endpoint joins what a call works on: the mount, the locks on its files, the feed that
wakes those who wait, and the counters.  A call is carried out in steps, each of which looks
at the mount once or uses the lock table once; between two steps of one call steps of other
calls may come.  A call that runs alone is its steps one after another.
-/
import MountSync.Lock
import MountSync.Feed
import MountSync.Mount.Change
import MountSync.Mount.Listing

namespace MountSync

/-- Counters for the traffic of an endpoint.  They have no bound; counters in words of 64 bits show
them modulo 2^64, which makes no difference before that many calls or bytes. -/
structure TransferStats where
  storesCompleted : Nat
  storesRejected : Nat
  fetchesCompleted : Nat
  fetchesSkipped : Nat
  deletesCompleted : Nat
  /-- Content bytes of completed stores. -/
  bytesReceived : Nat
  /-- Content bytes of completed fetches. -/
  bytesSent : Nat
  deriving DecidableEq, Repr, Inhabited

def TransferStats.zero : TransferStats := ⟨0, 0, 0, 0, 0, 0, 0⟩

structure Endpoint where
  mount : Mount
  locks : LockTable
  feed : ChangeFeed
  stats : TransferStats
  /-- The size of the pieces in which content is sent. -/
  chunkSize : Nat
  deriving Inhabited

namespace Endpoint

/-- An endpoint for a mount, with no lock held and nothing counted.  Content is sent in
pieces of at least one byte. -/
def create (mount : Mount) (chunkSize feedCapacity : Nat) : Endpoint where
  mount := mount
  locks := .empty
  feed := .create feedCapacity
  stats := .zero
  chunkSize := max chunkSize 1

def withMount (e : Endpoint) (mount : Mount) : Endpoint := { e with mount }

def withLocks (e : Endpoint) (locks : LockTable) : Endpoint := { e with locks }

def withFeed (e : Endpoint) (feed : ChangeFeed) : Endpoint := { e with feed }

def count (e : Endpoint) (change : TransferStats → TransferStats) : Endpoint :=
  { e with stats := change e.stats }

/-- Tells everybody who waits that a file has changed. -/
def announce (e : Endpoint) (name : String) (kind : ChangeKind) : Endpoint :=
  e.withFeed (e.feed.publish name kind).1

/-- Gives the lock of a call back, or up if the file is gone.  Nothing happens if the client
does not hold it. -/
def disposeLock (e : Endpoint) (name : String) (client : ClientId) (present : Bool) : Endpoint :=
  e.withLocks (e.locks.releaseOrDelete name client present).1

/-- Whether there is a file under a name as far as one can tell; what cannot be looked at
counts as absent. -/
def fileExists (e : Endpoint) (name : String) : Bool := e.mount.existsOr false name

end Endpoint

/-- The moments at which a call looks at the clock: when it arrives, when it has decided what
to do, and while content is moved. -/
structure Schedule where
  arrival : Moment
  decision : Moment
  transfer : Moment
  deriving DecidableEq, Repr, Inhabited

/-- A call that takes no time. -/
def Schedule.atOnce (now : Moment) : Schedule := ⟨now, now, now⟩

end MountSync
