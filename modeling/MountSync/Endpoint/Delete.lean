/-
Removing a file, and giving up the lock of a call that came too late.

A delete needs the lock of its file.  The row of the lock goes with the file; on every other
way out the lock is given back.
-/
import MountSync.Endpoint.Basic

namespace MountSync

/-- How far a delete has come. -/
inductive DeletePhase
  | arrived
  /-- The caller holds the lock. -/
  | owner
  /-- There is something to remove. -/
  | present
  /-- There is nothing; the row is still to be dropped. -/
  | absent
  /-- The file is gone. -/
  | removed
  /-- The removal failed; it is still to be seen whether the file is there. -/
  | refused (fault : IoFault)
  /-- Failed; the lock is still to be given back or up. -/
  | disposing (failure : Failure) (present : Bool)
  | finished (result : Except Failure Unit)

/-- A delete that is under way. -/
structure DeleteCall where
  name : String
  client : ClientId
  deadline : Deadline
  phase : DeletePhase

namespace DeleteCall

def begin (name : String) (client : ClientId) (deadline : Deadline) : DeleteCall :=
  ⟨name, client, deadline, .arrived⟩

def goTo (c : DeleteCall) (phase : DeletePhase) : DeleteCall := { c with phase }

def fail (c : DeleteCall) (failure : Failure) : DeleteCall := c.goTo (.finished (.error failure))

def result? (c : DeleteCall) : Option (Except Failure Unit) :=
  match c.phase with
  | .finished result => some result
  | _ => none

/-- Looks at the name and the lock. -/
def checkCaller (e : Endpoint) (c : DeleteCall) : DeleteCall :=
  match Mount.checkName c.name with
  | .error failure => c.fail failure
  | .ok () =>
    if e.locks.isOwner c.name c.client then c.goTo .owner
    else c.fail (.notLockHolder c.client c.name)

/-- Removes the entry. -/
def remove (e : Endpoint) (c : DeleteCall) : Endpoint × DeleteCall :=
  match e.mount.removeFile c.name with
  | .error fault => (e, c.goTo (.refused fault))
  | .ok mount => (e.withMount mount, c.goTo .removed)

def countCompleted (s : TransferStats) : TransferStats :=
  { s with deletesCompleted := s.deletesCompleted + 1 }

/-- Drops the row of the lock and announces the change. -/
def conclude (e : Endpoint) (c : DeleteCall) : Endpoint × DeleteCall :=
  match e.locks.delete c.name c.client with
  | (_, false) => (e, c.fail (.lockNotDeleted c.name))
  | (locks, true) =>
    (((e.withLocks locks).count countCompleted).announce c.name .deleted,
      c.goTo (.finished (.ok ())))

/-- Takes one step. -/
def step (e : Endpoint) (now : Moment) (c : DeleteCall) : Endpoint × DeleteCall :=
  match c.phase with
  | .arrived => (e, c.checkCaller e)
  | .owner =>
    if !e.fileExists c.name then (e, c.goTo .absent)
    else if c.deadline.isExpired now.instant then
      (e, c.goTo (.disposing .deadlineExceeded true))
    else (e, c.goTo .present)
  | .present => c.remove e
  | .absent => (e.disposeLock c.name c.client false, c.fail (.notOnServer c.name))
  | .removed => c.conclude e
  | .refused fault =>
    (e, c.goTo (.disposing (.cannotRemove c.name fault) (e.mount.existsOr true c.name)))
  | .disposing failure present => (e.disposeLock c.name c.client present, c.fail failure)
  | .finished _ => (e, c)

end DeleteCall

/-- Carries out a delete alone.  It takes at most five steps. -/
def Endpoint.delete (e : Endpoint) (name : String) (client : ClientId) (deadline : Deadline)
    (s : Schedule) : Endpoint × Except Failure Unit :=
  let (e, c) := (DeleteCall.begin name client deadline).step e s.arrival
  let (e, c) := c.step e s.decision
  let (e, c) := c.step e s.transfer
  let (e, c) := c.step e s.transfer
  let (e, c) := c.step e s.transfer
  (e, c.result?.getD (.error .deadlineExceeded))

/-! ### Calls that came too late

A call that runs under a lock may expire before its turn comes.  Its caller has given up on
it and will not use the lock. -/

/-- How far the lock of an expired call has been given up. -/
inductive ExpiryPhase
  | arrived
  /-- The caller holds the lock. -/
  | owner
  /-- The lock is still to be given back or up. -/
  | disposing (present : Bool)
  | finished
  deriving DecidableEq, Repr, Inhabited

/-- Giving up the lock of a call that expired. -/
structure ExpiryCall where
  name : String
  client : ClientId
  phase : ExpiryPhase
  deriving DecidableEq, Repr, Inhabited

namespace ExpiryCall

def begin (name : String) (client : ClientId) : ExpiryCall := ⟨name, client, .arrived⟩

def goTo (c : ExpiryCall) (phase : ExpiryPhase) : ExpiryCall := { c with phase }

/-- Takes one step. -/
def step (e : Endpoint) (c : ExpiryCall) : Endpoint × ExpiryCall :=
  match c.phase with
  | .arrived =>
    if Mount.accepts c.name && e.locks.isOwner c.name c.client then (e, c.goTo .owner)
    else (e, c.goTo .finished)
  | .owner => (e, c.goTo (.disposing (e.fileExists c.name)))
  | .disposing present => (e.disposeLock c.name c.client present, c.goTo .finished)
  | .finished => (e, c)

end ExpiryCall

/-- Gives up the lock of a call whose deadline passed before it ran.  Nothing happens if the
client does not hold it. -/
def Endpoint.abandonExpired (e : Endpoint) (name : String) (client : ClientId) : Endpoint :=
  let (e, c) := (ExpiryCall.begin name client).step e
  let (e, c) := c.step e
  (c.step e).1

end MountSync
