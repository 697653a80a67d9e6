/-
The calls that move no content: asking for a lock, looking at files, and waiting for a
change.
-/
import MountSync.Endpoint.Basic

namespace MountSync

namespace Endpoint

/-- Asks for the lock on a file.  A refusal names the owner. -/
def requestLock (e : Endpoint) (name : String) (client : ClientId) (deadline : Deadline)
    (now : Nat) : Endpoint × Except Failure Unit :=
  if deadline.isExpired now then (e, .error .deadlineExceeded)
  else match Mount.checkName name with
    | .error failure => (e, .error failure)
    | .ok () =>
      match e.locks.acquire name client with
      | (locks, true) => (e.withLocks locks, .ok ())
      | (locks, false) => (e.withLocks locks, .error (.locked name (locks.ownerOf name)))

/-- Name and time of every file. -/
def list (e : Endpoint) (deadline : Deadline) (now : Nat) : Except Failure (List ListEntry) :=
  if deadline.isExpired now then .error .deadlineExceeded else e.mount.list

/-- The record of a file. -/
def stat (e : Endpoint) (name : String) (deadline : Deadline) (now : Nat) :
    Except Failure FileRecord :=
  if deadline.isExpired now then .error .deadlineExceeded
  else match e.mount.statFile name with
    | .error failure => .error failure
    | .ok none => .error (.notOnServer name)
    | .ok (some record) => .ok record

/-- Whether a file has exactly a given time. -/
def compareMtime (e : Endpoint) (name : String) (mtime : UnixTime) (deadline : Deadline)
    (now : Nat) : Except Failure Bool :=
  match e.stat name deadline now with
  | .error failure => .error failure
  | .ok record => .ok (record.mtime = mtime)

end Endpoint

/-! ### Comparing checksums

If the caller's copy is the same as the server's no store will follow, so the lock that the
caller may hold is given back. -/

/-- How far a comparison has come. -/
inductive ProbePhase
  | arrived
  /-- The copies are the same. -/
  | same
  /-- The copies are the same and the caller holds the lock. -/
  | owner
  | finished (result : Except Failure UInt32)

/-- A comparison that is under way. -/
structure ProbeCall where
  name : String
  client : ClientId
  /-- The checksum of the caller's copy. -/
  checksum : UInt32
  deadline : Deadline
  phase : ProbePhase

namespace ProbeCall

def begin (name : String) (client : ClientId) (checksum : UInt32) (deadline : Deadline) :
    ProbeCall :=
  ⟨name, client, checksum, deadline, .arrived⟩

def goTo (c : ProbeCall) (phase : ProbePhase) : ProbeCall := { c with phase }

def finish (c : ProbeCall) (result : Except Failure UInt32) : ProbeCall :=
  c.goTo (.finished result)

def result? (c : ProbeCall) : Option (Except Failure UInt32) :=
  match c.phase with
  | .finished result => some result
  | _ => none

/-- Takes one step. -/
def step (e : Endpoint) (now : Moment) (c : ProbeCall) : Endpoint × ProbeCall :=
  match c.phase with
  | .arrived =>
    match e.stat c.name c.deadline now.instant with
    | .error failure => (e, c.finish (.error failure))
    | .ok record =>
      if record.checksum = c.checksum then (e, c.goTo .same)
      else (e, c.finish (.ok record.checksum))
  | .same =>
    if e.locks.isOwner c.name c.client then (e, c.goTo .owner)
    else (e, c.finish (.error (.sameChecksum c.name)))
  | .owner =>
    (e.withLocks (e.locks.release c.name c.client).1, c.finish (.error (.sameChecksum c.name)))
  | .finished _ => (e, c)

end ProbeCall

/-- Compares a checksum with the server's copy, alone.  Equal checksums are a failure. -/
def Endpoint.probe (e : Endpoint) (name : String) (client : ClientId) (checksum : UInt32)
    (deadline : Deadline) (now : Moment) : Endpoint × Except Failure UInt32 :=
  let (e, c) := (ProbeCall.begin name client checksum deadline).step e now
  let (e, c) := c.step e now
  let (e, c) := c.step e now
  (e, c.result?.getD (.error .deadlineExceeded))

/-! ### Waiting for a change -/

/-- A call for the manifest: over, or waiting for a change. -/
inductive ManifestCall
  | waiting (w : Waiter)
  | finished (result : Except Failure (List FileRecord))

namespace ManifestCall

/-- Begins a call that may wait for a change, but not past its deadline.  If it may not wait
at all the manifest is made at once. -/
def begin (e : Endpoint) (now : Nat) (maxWait : Nat) (deadline : Deadline) :
    Endpoint × ManifestCall :=
  if min maxWait (deadline.remaining now) = 0 then (e, .finished e.mount.enumerate)
  else
    let (feed, w) := Waiter.begin e.feed now (min maxWait (deadline.remaining now))
    (e.withFeed feed, .waiting w)

/-- Looks after a call: once there is a change, or the wait is over, the manifest is made. -/
def poll (e : Endpoint) (now : Nat) : ManifestCall → Endpoint × ManifestCall
  | .finished result => (e, .finished result)
  | .waiting w =>
    match w.poll e.feed now with
    | (feed, .error w) => (e.withFeed feed, .waiting w)
    | (feed, .ok _) => (e.withFeed feed, .finished e.mount.enumerate)

/-- When a call will look again if nothing changes. -/
def nextInstant (now : Nat) : ManifestCall → Nat
  | .finished _ => now
  | .waiting w => max now w.expiry

def result? : ManifestCall → Option (Except Failure (List FileRecord))
  | .finished result => some result
  | .waiting _ => none

end ManifestCall

/-- Asks for the manifest, alone: nothing changes, so a wait goes on to its end.  Tells the
instant at which the call is over. -/
def Endpoint.manifest (e : Endpoint) (now : Nat) (maxWait : Nat) (deadline : Deadline) :
    Endpoint × Nat × Except Failure (List FileRecord) :=
  let (e, c) := ManifestCall.begin e now maxWait deadline
  let later := c.nextInstant now
  let (e, c) := c.poll e later
  (e, later, c.result?.getD (.error .deadlineExceeded))

end MountSync
