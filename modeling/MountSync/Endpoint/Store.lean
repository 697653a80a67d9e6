/-
Receiving a file.

A store needs the lock of its file.  It compares the copies, receives the content into a
temporary file, and gives that the name of the file only when everything has arrived and is
what the header announced.  Whichever way it ends, the lock is given back, or given up if
there is no file.

The content comes as a stream that somebody else produces, so a store stops and waits before
each part of it; all other steps follow one another on their own.
-/
import MountSync.Conflict
import MountSync.Endpoint.Basic
import MountSync.Frame.Basic

namespace MountSync

/-- What a store finds when it asks its stream to go on. -/
inductive Arrival
  | chunk (content : Bytes)
  /-- A part that makes no sense; the stream could go on behind it. -/
  | refused (failure : Failure)
  | ended
  /-- The stream breaks off. -/
  | broken (failure : Failure)
  /-- Nothing came before the deadline. -/
  | late
  deriving DecidableEq, Repr, Inhabited

namespace Arrival

/-- Whether nothing can follow. -/
def isLast : Arrival → Bool
  | ended | broken _ => true
  | chunk _ | refused _ | late => false

/-- The number of content bytes that arrive. -/
def size : Arrival → Nat
  | chunk content => content.length
  | _ => 0

end Arrival

/-- What has arrived of a file. -/
structure Intake where
  /-- The name of the temporary file. -/
  temporary : EntryName
  /-- The pieces, the newest first. -/
  pieces : List Bytes
  /-- How many bytes they have.  A store stops at the first piece that goes beyond the size announced,
  which is less than 2^64, so a word of 64 bits has room for this number. -/
  received : Nat
  crc : Crc
  /-- When the temporary file was last written to. -/
  written : UnixTime
  deriving DecidableEq, Repr, Inhabited

namespace Intake

/-- A temporary file that was just made. -/
def fresh (temporary : EntryName) (now : UnixTime) : Intake := ⟨temporary, [], 0, .fresh, now⟩

/-- Takes one more piece. -/
def accept (i : Intake) (piece : Bytes) (now : UnixTime) : Intake where
  temporary := i.temporary
  pieces := piece :: i.pieces
  received := i.received + piece.length
  crc := i.crc.update piece
  written := if piece = [] then i.written else now

def content (i : Intake) : Bytes := i.pieces.reverse.flatten

/-! A piece is added at the end of the content, and counted and summed up as it comes. -/

@[simp] theorem content_fresh (temporary : EntryName) (now : UnixTime) :
    (fresh temporary now).content = [] := rfl

theorem content_accept (i : Intake) (piece : Bytes) (now : UnixTime) :
    (i.accept piece now).content = i.content ++ piece := by
  simp [content, accept]

theorem received_accept {i : Intake} (h : i.received = i.content.length) (piece : Bytes)
    (now : UnixTime) :
    (i.accept piece now).received = (i.accept piece now).content.length := by
  rw [content_accept, List.length_append, ← h]
  rfl

theorem crc_accept {i : Intake} (h : i.crc = Crc.fresh.update i.content) (piece : Bytes)
    (now : UnixTime) :
    (i.accept piece now).crc = Crc.fresh.update (i.accept piece now).content := by
  rw [content_accept, Crc.update_append, ← h]
  rfl

/-- Why the content is not what a header announced, if it is not. -/
def mismatch (i : Intake) (h : StoreHeader) : Option Failure :=
  if i.received ≠ h.size.toNat then some (.cutShort i.received h.size)
  else if i.crc.finish ≠ h.checksum then some (.contentMismatch i.crc.finish h.checksum)
  else none

end Intake

/-- How far a store has come. -/
inductive StorePhase
  | arrived
  /-- The deadline had passed when the call arrived. -/
  | expired
  /-- The caller holds the lock. -/
  | owner
  /-- The caller's copy shall replace the server's. -/
  | opening
  /-- Waiting for the stream. -/
  | receiving (intake : Intake)
  /-- Everything is there and is as announced. -/
  | complete (intake : Intake)
  /-- The content is in place. -/
  | installed (received : Nat)
  /-- Failed; it is still to be seen whether there is a file. -/
  | givingUp (failure : Failure)
  /-- Failed; the lock is still to be given back or up. -/
  | disposing (failure : Failure) (present : Bool)
  | finished (result : Except Failure String)

/-- A store that is under way. -/
structure StoreCall where
  header : StoreHeader
  deadline : Deadline
  phase : StorePhase

namespace StoreCall

def begin (header : StoreHeader) (deadline : Deadline) : StoreCall := ⟨header, deadline, .arrived⟩

def name (c : StoreCall) : String := c.header.name

def client (c : StoreCall) : ClientId := c.header.client

def goTo (c : StoreCall) (phase : StorePhase) : StoreCall := { c with phase }

def fail (c : StoreCall) (failure : Failure) : StoreCall := c.goTo (.finished (.error failure))

def isReceiving (c : StoreCall) : Bool :=
  match c.phase with
  | .receiving _ => true
  | _ => false

def result? (c : StoreCall) : Option (Except Failure String) :=
  match c.phase with
  | .finished result => some result
  | _ => none

/-- Looks at the name, the time and the lock. -/
def checkCaller (e : Endpoint) (now : Moment) (c : StoreCall) : StoreCall :=
  match Mount.checkName c.name with
  | .error failure => c.fail failure
  | .ok () =>
    if c.deadline.isExpired now.instant then c.goTo .expired
    else if e.locks.isOwner c.name c.client then c.goTo .owner
    else c.fail (.notLockHolder c.client c.name)

def countRejected (s : TransferStats) : TransferStats :=
  { s with storesRejected := s.storesRejected + 1 }

/-- Compares the copies. -/
def decideCopy (e : Endpoint) (now : Moment) (c : StoreCall) : Endpoint × StoreCall :=
  match e.mount.statFile c.name with
  | .error failure => (e, c.goTo (.givingUp failure))
  | .ok found =>
    match resolve .store (found.map FileRecord.version) c.header.version with
    | .alreadySynced =>
      (e.count countRejected, c.goTo (.disposing (.upToDateOnServer c.name) found.isSome))
    | .staleSource =>
      (e.count countRejected, c.goTo (.disposing (.serverNewer c.name) found.isSome))
    | .proceed =>
      if c.deadline.isExpired now.instant then (e, c.goTo (.givingUp .deadlineExceeded))
      else (e, c.goTo .opening)

/-- Makes the temporary file. -/
def openPartial (e : Endpoint) (now : Moment) (c : StoreCall) : Endpoint × StoreCall :=
  match e.mount.createPartial now.calendar with
  | .error fault => (e.count countRejected, c.goTo (.givingUp (.io fault)))
  | .ok (mount, temporary) =>
    (e.withMount mount, c.goTo (.receiving (.fresh temporary now.calendar)))

/-- Throws away what has arrived. -/
def reject (e : Endpoint) (c : StoreCall) (intake : Intake) (failure : Failure) :
    Endpoint × StoreCall :=
  ((e.withMount (e.mount.drop intake.temporary)).count countRejected, c.goTo (.givingUp failure))

/-- Puts what has arrived in place. -/
def installContent (e : Endpoint) (c : StoreCall) (intake : Intake) : Endpoint × StoreCall :=
  match e.mount.install intake.temporary c.name intake.content intake.written with
  | .error fault => c.reject e intake (.io fault)
  | .ok mount => (e.withMount mount, c.goTo (.installed intake.received))

def countCompleted (received : Nat) (s : TransferStats) : TransferStats :=
  { s with
    storesCompleted := s.storesCompleted + 1
    bytesReceived := s.bytesReceived + received }

/-- Gives the lock back and announces the change. -/
def conclude (e : Endpoint) (c : StoreCall) (received : Nat) : Endpoint × StoreCall :=
  let e := e.count (countCompleted received)
  match e.locks.release c.name c.client with
  | (_, false) => (e, c.fail (.lockNotReleased c.name))
  | (locks, true) =>
    ((e.withLocks locks).announce c.name .stored, c.goTo (.finished (.ok c.name)))

/-- Takes one step.  A store that waits for its stream, or is over, takes none. -/
def step (e : Endpoint) (now : Moment) (c : StoreCall) : Endpoint × StoreCall :=
  match c.phase with
  | .arrived => (e, c.checkCaller e now)
  | .expired =>
    if e.locks.isOwner c.name c.client then (e, c.goTo (.givingUp .deadlineExceeded))
    else (e, c.fail .deadlineExceeded)
  | .owner => c.decideCopy e now
  | .opening => c.openPartial e now
  | .receiving _ => (e, c)
  | .complete intake => c.installContent e intake
  | .installed received => c.conclude e received
  | .givingUp failure => (e, c.goTo (.disposing failure (e.fileExists c.name)))
  | .disposing failure present => (e.disposeLock c.name c.client present, c.fail failure)
  | .finished _ => (e, c)

/-- Takes what the stream has next. -/
def take (e : Endpoint) (now : Moment) (c : StoreCall) (a : Arrival) : Endpoint × StoreCall :=
  match c.phase with
  | .receiving intake =>
    match a with
    | .chunk piece =>
      if c.header.size.toNat < intake.received + piece.length then
        c.reject e intake (.oversized c.header.size)
      else (e, c.goTo (.receiving (intake.accept piece now.calendar)))
    | .ended =>
      match intake.mismatch c.header with
      | some failure => c.reject e intake failure
      | none => (e, c.goTo (.complete intake))
    | .refused failure | .broken failure => c.reject e intake failure
    | .late => c.reject e intake .deadlineExceeded
  | _ => (e, c)

/-! ### A store that runs alone -/

/-- Takes steps until the call waits for its stream or is over.  From the comparison of the
copies on that takes at most three. -/
def settle (e : Endpoint) (now : Moment) (c : StoreCall) : Endpoint × StoreCall :=
  let (e, c) := c.step e now
  let (e, c) := c.step e now
  c.step e now

/-- Takes the steps up to the stream. -/
def enter (e : Endpoint) (s : Schedule) (c : StoreCall) : Endpoint × StoreCall :=
  let (e, c) := c.step e s.arrival
  let (e, c) := c.step e s.decision
  c.settle e s.transfer

/-- Takes one part of the stream and all steps that follow from it. -/
def takeAndSettle (e : Endpoint) (now : Moment) (c : StoreCall) (a : Arrival) :
    Endpoint × StoreCall :=
  let (e, c) := c.take e now a
  c.settle e now

/-- Takes the stream as far as the call wants it, and tells what is left.  If the stream runs
out without an end the deadline passes. -/
def drink (e : Endpoint) (now : Moment) (c : StoreCall) :
    List Arrival → Endpoint × StoreCall × List Arrival
  | [] =>
    let (e, c) := c.takeAndSettle e now .late
    (e, c, [])
  | a :: rest =>
    if c.isReceiving then
      let (e, c) := c.takeAndSettle e now a
      drink e now c rest
    else (e, c, a :: rest)

end StoreCall

/-- Carries out a store, and tells what the call left of its stream. -/
def Endpoint.storeFrom (e : Endpoint) (header : StoreHeader) (deadline : Deadline) (s : Schedule)
    (stream : List Arrival) : Endpoint × Except Failure String × List Arrival :=
  let (e, c) := (StoreCall.begin header deadline).enter e s
  let (e, c, rest) := c.drink e s.transfer stream
  (e, c.result?.getD (.error .deadlineExceeded), rest)

/-- Carries out a store. -/
def Endpoint.store (e : Endpoint) (header : StoreHeader) (deadline : Deadline) (s : Schedule)
    (stream : List Arrival) : Endpoint × Except Failure String :=
  let (e, result, _) := e.storeFrom header deadline s stream
  (e, result)

end MountSync
