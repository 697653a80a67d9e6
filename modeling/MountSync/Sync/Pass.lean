/-
Bringing a mount and the server in step.

A pass goes through the server's manifest and chooses a transfer for each entry; a batch of
local changes goes the other way.  Each entry is decided with the mount as it is when its turn
comes.  Passes and batches of one mount never run at the same time.
-/
import MountSync.Client.Basic
import MountSync.Conflict
import MountSync.Sync.Report
import MountSync.Watch.Settle

namespace MountSync

namespace Site

variable {σ : Type}

/-- Does what was planned for a file. -/
def carryOut (p : Peer σ) (x : Site σ) (name : String) : SyncAction → Site σ × Booking
  | .skip => (x, .skipped)
  | .anomaly => (x, .anomaly)
  | .fetch =>
    let (x, result) := x.fetch p name
    (x, .ofResult .fetched result)
  | .store =>
    let (x, result) := x.store p name
    (x, .ofResult .stored result)

/-- Brings one entry of the manifest in step. -/
def reconcileEntry (p : Peer σ) (x : Site σ) (remote : FileRecord) : Site σ × Booking :=
  match x.localRecord remote.name with
  | .error _ => (x, .failed)
  | .ok mine => x.carryOut p remote.name (plan mine remote)

/-- Brings the entries of a manifest in step, one after another. -/
def reconcileFrom (p : Peer σ) (x : Site σ) (report : Report) :
    List FileRecord → Site σ × Report
  | [] => (x, report)
  | remote :: rest =>
    let (x, booking) := x.reconcileEntry p remote
    reconcileFrom p x (report.book remote.name booking) rest

/-- Brings the mount in step with a manifest. -/
def reconcile (p : Peer σ) (x : Site σ) (manifest : List FileRecord) : Site σ × Report :=
  x.reconcileFrom p .empty manifest

/-- Sends one local change to the server. -/
def applyChange (p : Peer σ) (x : Site σ) (change : Watch.LocalChange) : Site σ × Booking :=
  match change.kind with
  | .changed =>
    let (x, result) := x.store p change.name
    (x, .ofResult .stored result)
  | .removed =>
    let (x, result) := x.delete p change.name
    (x, .ofResult .deleted result)

def applyFrom (p : Peer σ) (x : Site σ) (report : Report) :
    List Watch.LocalChange → Site σ × Report
  | [] => (x, report)
  | change :: rest =>
    let (x, booking) := x.applyChange p change
    applyFrom p x (report.book change.name booking) rest

/-- Sends a batch of local changes to the server. -/
def applyLocalChanges (p : Peer σ) (x : Site σ) (changes : List Watch.LocalChange) :
    Site σ × Report :=
  x.applyFrom p .empty changes

/-- One round: waits for a change, asks for the manifest and brings the mount in step with
it. -/
def pollOnce (p : Peer σ) (x : Site σ) : Site σ × Except Failure Report :=
  match x.changeNotification p with
  | (x, .error failure) => (x, .error failure)
  | (x, .ok manifest) =>
    let (x, report) := x.reconcile p manifest
    (x, .ok report)

end Site

end MountSync
