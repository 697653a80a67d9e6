/-
Sending a file.

A fetch takes no lock.  It looks at the file once and announces its size, opens it, and sends
it piece by piece; the open file stays what it was even if its name comes to mean another
one.  If the caller's copy need not be replaced, a single message says so.

Messages are handed to a reader that may be slow or gone, so a fetch stops and waits before
each of them; all other steps follow one another on their own.
-/
import MountSync.Conflict
import MountSync.Endpoint.Basic
import MountSync.Frame.Basic

namespace MountSync

/-- What becomes of a message that is handed over. -/
inductive Handover
  | delivered
  /-- Nobody takes messages any more. -/
  | readerGone
  /-- Nobody took it before the deadline. -/
  | late
  deriving DecidableEq, Repr, Inhabited

/-- The most bytes that one read of a file gives. -/
def readLimit : Nat := 2097152

/-- A file that is being sent. -/
structure Sending where
  /-- What was announced. -/
  record : FileRecord
  /-- Where the file was opened. -/
  place : Place
  inode : Nat
  /-- The content as it was last seen. -/
  content : Bytes
  sent : Nat
  /-- What of the content lies behind the bytes that were sent. -/
  ahead : Bytes
  ahead_eq : ahead = content.drop sent
  deriving DecidableEq, Repr

namespace Sending

instance : Inhabited Sending := ⟨⟨default, [], 0, [], 0, [], rfl⟩⟩

/-- Looks at the content from what was sent on. -/
def see (s : Sending) (content : Bytes) : Sending where
  record := s.record
  place := s.place
  inode := s.inode
  content := content
  sent := s.sent
  ahead := content.drop s.sent
  ahead_eq := rfl

/-- Begins to send a file. -/
def start (record : FileRecord) (place : Place) (inode : Nat) (content : Bytes) : Sending :=
  ⟨record, place, inode, content, 0, content, rfl⟩

/-- Whether a content is the one that was last seen.  Mostly it is the very same in memory,
which is found out at once. -/
def hasSeen (s : Sending) (content : Bytes) : Bool :=
  withPtrEq content s.content (fun _ => content == s.content) fun h => by simp [h]

theorem hasSeen_iff (s : Sending) (content : Bytes) : s.hasSeen content ↔ content = s.content := by
  simp [hasSeen, withPtrEq]

/-- Looks at the open file again.  Once it is not at its place any more it cannot change. -/
def refresh (s : Sending) (m : Mount) : Sending :=
  match m.tree.get? s.place with
  | some (.file f) => if f.inode = s.inode && !s.hasSeen f.content then s.see f.content else s
  | _ => s

/-- The next piece: at most `limit` bytes, and never more than was announced. -/
def nextPiece (s : Sending) (limit : Nat) : Bytes :=
  s.ahead.take (min limit (s.record.size.toNat - s.sent))

theorem nextPiece_eq (s : Sending) (limit : Nat) :
    s.nextPiece limit
      = (s.content.drop s.sent).take (min limit (s.record.size.toNat - s.sent)) := by
  rw [nextPiece, s.ahead_eq]

def message (s : Sending) (piece : Bytes) : FetchChunk := ⟨s.record.size, true, piece⟩

/-- Counts a piece as sent. -/
def advance (s : Sending) (piece : Bytes) : Sending where
  record := s.record
  place := s.place
  inode := s.inode
  content := s.content
  sent := s.sent + piece.length
  ahead := s.ahead.drop piece.length
  ahead_eq := by rw [s.ahead_eq, List.drop_drop]

end Sending

/-- The message that no copy is needed. -/
def FetchChunk.skip (record : FileRecord) : FetchChunk := ⟨record.size, false, []⟩

/-- The message that stands for the content of an empty file. -/
def FetchChunk.blank : FetchChunk := ⟨0, true, []⟩

/-- What a fetch does once a message is delivered. -/
inductive AfterHandover
  | refuse (failure : Failure)
  | goOn (s : Sending)
  | conclude (sent : Nat)
  deriving DecidableEq, Repr, Inhabited

/-- How far a fetch has come. -/
inductive FetchPhase
  | arrived
  /-- The file is there. -/
  | found (record : FileRecord)
  /-- The server's copy shall replace the caller's. -/
  | opening (record : FileRecord)
  | reading (s : Sending)
  /-- Waiting for the reader to take a message. -/
  | offering (message : FetchChunk) (next : AfterHandover)
  | finished (result : Except Failure Nat)

/-- A fetch that is under way. -/
structure FetchCall where
  name : String
  /-- The version of the caller's copy, if it has one. -/
  mine : Option FileVersion
  deadline : Deadline
  phase : FetchPhase

namespace FetchCall

def begin (name : String) (mine : Option FileVersion) (deadline : Deadline) : FetchCall :=
  ⟨name, mine, deadline, .arrived⟩

def goTo (c : FetchCall) (phase : FetchPhase) : FetchCall := { c with phase }

def fail (c : FetchCall) (failure : Failure) : FetchCall := c.goTo (.finished (.error failure))

def result? (c : FetchCall) : Option (Except Failure Nat) :=
  match c.phase with
  | .finished result => some result
  | _ => none

/-- Looks for the file. -/
def lookUp (e : Endpoint) (c : FetchCall) : FetchCall :=
  match e.mount.statFile c.name with
  | .error failure => c.fail failure
  | .ok none => c.fail (.notOnServer c.name)
  | .ok (some record) => c.goTo (.found record)

def countSkipped (s : TransferStats) : TransferStats :=
  { s with fetchesSkipped := s.fetchesSkipped + 1 }

/-- Compares the copies. -/
def decideCopy (e : Endpoint) (now : Moment) (c : FetchCall) (record : FileRecord) :
    Endpoint × FetchCall :=
  let decline (failure : Failure) : Endpoint × FetchCall :=
    (e.count countSkipped, c.goTo (.offering (.skip record) (.refuse failure)))
  if c.deadline.isExpired now.instant then (e, c.fail .deadlineExceeded)
  else match resolve .fetch c.mine record.version with
    | .proceed => (e, c.goTo (.opening record))
    | .alreadySynced => decline (.upToDateOnClient c.name)
    | .staleSource => decline (.clientNewer c.name)

/-- Opens the file. -/
def openFile (e : Endpoint) (c : FetchCall) (record : FileRecord) : FetchCall :=
  match e.mount.locate c.name with
  | .ok (place, .file f) => c.goTo (.reading (.start record place f.inode f.content))
  | .ok _ => c.fail (.io .isDirectory)
  | .error .noSuchFile => c.fail (.notOnServer c.name)
  | .error fault => c.fail (.io fault)

def countCompleted (sent : Nat) (s : TransferStats) : TransferStats :=
  { s with
    fetchesCompleted := s.fetchesCompleted + 1
    bytesSent := s.bytesSent + sent }

/-- Ends a fetch that has sent everything. -/
def conclude (e : Endpoint) (c : FetchCall) (sent : Nat) : Endpoint × FetchCall :=
  (e.count (countCompleted sent), c.goTo (.finished (.ok sent)))

/-- Ends a fetch that has come to the end of its file. -/
def close (e : Endpoint) (c : FetchCall) (s : Sending) : Endpoint × FetchCall :=
  if s.sent ≠ s.record.size.toNat then (e, c.fail (.shrank c.name s.sent s.record.size))
  else if s.sent = 0 then (e, c.goTo (.offering .blank (.conclude 0)))
  else c.conclude e s.sent

/-- Reads the next piece, of at most `limit` bytes. -/
def read (e : Endpoint) (now : Moment) (limit : Nat) (c : FetchCall) (s : Sending) :
    Endpoint × FetchCall :=
  if c.deadline.isExpired now.instant then (e, c.fail .deadlineExceeded)
  else
    let s := s.refresh e.mount
    let piece := s.nextPiece limit
    if piece = [] then c.close e s
    else (e, c.goTo (.offering (s.message piece) (.goOn (s.advance piece))))

/-- Takes one step.  A read gives at most `limit` bytes, but at least one, and no more than
fit into a message. -/
def step (e : Endpoint) (now : Moment) (limit : Nat) (c : FetchCall) : Endpoint × FetchCall :=
  match c.phase with
  | .arrived => (e, c.lookUp e)
  | .found record => c.decideCopy e now record
  | .opening record => (e, c.openFile e record)
  | .reading s => c.read e now (max 1 (min limit e.chunkSize)) s
  | .offering _ _ => (e, c)
  | .finished _ => (e, c)

/-- Goes on after a message was handed over, or could not be. -/
def handOver (e : Endpoint) (c : FetchCall) (outcome : Handover) : Endpoint × FetchCall :=
  match c.phase with
  | .offering _ next =>
    match outcome, next with
    | .readerGone, _ => (e, c.fail .readerGone)
    | .late, _ => (e, c.fail .deadlineExceeded)
    | .delivered, .refuse failure => (e, c.fail failure)
    | .delivered, .goOn s => (e, c.goTo (.reading s))
    | .delivered, .conclude sent => c.conclude e sent
  | _ => (e, c)

/-! ### A fetch that runs alone -/

/-- A bound on the number of steps and messages that are left.  Each byte takes at most one
read and one message. -/
def effort (c : FetchCall) : Nat :=
  match c.phase with
  | .arrived => 0
  | .found record => 2 * record.size.toNat + 5
  | .opening record => 2 * record.size.toNat + 4
  | .reading s => 2 * (s.record.size.toNat - s.sent) + 3
  | .offering _ (.goOn s) => 2 * (s.record.size.toNat - s.sent) + 4
  | .offering _ _ => 1
  | .finished _ => 0

/-- Goes on until the call is over, and tells which messages were delivered.  `limits` says
how many bytes each read gives, `reader` what becomes of each message; both are told how many
messages came before. -/
def run (now : Moment) (limits : Nat → Nat) (reader : Nat → Handover) :
    (fuel sent : Nat) → Endpoint → FetchCall → Endpoint × FetchCall × List FetchChunk
  | 0, _, e, c => (e, c, [])
  | fuel + 1, sent, e, c =>
    match c.phase with
    | .finished _ => (e, c, [])
    | .offering message _ =>
      let (e, c) := c.handOver e (reader sent)
      let (e, c, messages) := run now limits reader fuel (sent + 1) e c
      (e, c, if reader sent = .delivered then message :: messages else messages)
    | _ =>
      let (e, c) := c.step e now (limits sent)
      run now limits reader fuel sent e c

/-- Goes on until the call is over. -/
def finish (e : Endpoint) (now : Moment) (limits : Nat → Nat) (reader : Nat → Handover)
    (c : FetchCall) : Endpoint × FetchCall × List FetchChunk :=
  run now limits reader c.effort 0 e c

/-- Takes the steps up to the first message. -/
def enter (e : Endpoint) (s : Schedule) (limit : Nat) (c : FetchCall) : Endpoint × FetchCall :=
  let (e, c) := c.step e s.arrival limit
  let (e, c) := c.step e s.decision limit
  let (e, c) := c.step e s.transfer limit
  c.step e s.transfer limit

end FetchCall

/-- Carries out a fetch alone, and tells which messages were delivered. -/
def Endpoint.fetch (e : Endpoint) (name : String) (mine : Option FileVersion)
    (deadline : Deadline) (s : Schedule) (limits : Nat → Nat) (reader : Nat → Handover) :
    Endpoint × Except Failure Nat × List FetchChunk :=
  let (e, c) := (FetchCall.begin name mine deadline).enter e s (limits 0)
  let (e, c, messages) := c.finish e s.transfer limits reader
  (e, c.result?.getD (.error .deadlineExceeded), messages)

end MountSync
