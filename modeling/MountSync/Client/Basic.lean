/-
A client: one mount directory, and calls on one server.

Calls that need a copy of the file look at the mount first, so a name that cannot be used and
a file that is not there never reach the server.
-/
import MountSync.Client.Peer
import MountSync.Client.Reply

namespace MountSync

structure Client where
  config : ClientConfig
  mount : Mount
  deriving Inhabited

/-- A client together with what is on the other side. -/
structure Site (σ : Type) where
  client : Client
  world : σ

namespace Site

variable {σ : Type}

def mount (x : Site σ) : Mount := x.client.mount

def config (x : Site σ) : ClientConfig := x.client.config

def name (x : Site σ) : ClientId := x.client.config.client

def withMount (x : Site σ) (mount : Mount) : Site σ := { x with client := { x.client with mount } }

/-- Makes a call: the request, and what is sent behind it. -/
def call (p : Peer σ) (x : Site σ) (timeout : Nat) (request : Request) (more : List ClientFrame) :
    Site σ × Except Failure (List Message) :=
  match p.exchange x.world timeout (.call (.ofNat timeout) request :: more) with
  | (world, .ok messages) => ({ x with world }, .ok messages)
  | (world, .error fault) => ({ x with world }, .error (.link fault))

/-- Makes a call that is answered by a reply alone. -/
def ask (p : Peer σ) (x : Site σ) (timeout : Nat) (request : Request) (more : List ClientFrame) :
    Site σ × Except Failure Reply :=
  match x.call p timeout request more with
  | (x, .error failure) => (x, .error failure)
  | (x, .ok messages) => (x, Message.replyIn messages)

/-- Makes a call and takes from the reply what belongs to it.  Any other reply is a failure
of its own. -/
def askFor {α : Type} (p : Peer σ) (x : Site σ) (timeout : Nat) (request : Request)
    (more : List ClientFrame) (what : String) (take : Reply → Option α) :
    Site σ × Except Failure α :=
  match x.ask p timeout request more with
  | (x, .error failure) => (x, .error failure)
  | (x, .ok reply) =>
    match take reply with
    | some a => (x, .ok a)
    | none => (x, .error (.unexpected what))

def noContent? : Reply → Option Unit
  | .empty => some ()
  | _ => none

/-- The record of the client's copy of a file, if there is one. -/
def localRecord (x : Site σ) (name : String) : Except Failure (Option FileRecord) :=
  x.mount.statFile name

/-- The record of the client's copy of a file, which has to be there. -/
def ownRecord (x : Site σ) (name : String) : Except Failure FileRecord :=
  match x.localRecord name with
  | .error failure => .error failure
  | .ok none => .error (.notInMount name)
  | .ok (some record) => .ok record

/-- Asks for the lock on a file. -/
def requestLock (p : Peer σ) (x : Site σ) (name : String) : Site σ × Except Failure Unit :=
  x.askFor p x.config.deadline (.requestLock name x.name) [] "lock reply" noContent?

/-! ### Storing -/

/-- The content of a file in the pieces in which it is sent. -/
def piecesToSend (x : Site σ) (name : String) (size : UInt64) : List ClientFrame :=
  match x.mount.locate name with
  | .ok (_, .file f) =>
    let pieceSize := min (max x.config.chunkSize 1) readLimit
    (piecesOf pieceSize (f.content.take size.toNat)).map .chunk ++ [.endOfStream]
  | _ => []

/-- The header for the client's copy of a file. -/
def headerFor (x : Site σ) (record : FileRecord) : StoreHeader where
  name := record.name
  size := record.size
  client := x.name
  checksum := record.checksum
  mtime := record.mtime

def stored? : Reply → Option Unit
  | .stored _ => some ()
  | _ => none

/-- Sends the client's copy of a file to the server, after asking for the lock.  A file that
is not there or is empty is not stored. -/
def store (p : Peer σ) (x : Site σ) (name : String) : Site σ × Except Failure Unit :=
  match x.ownRecord name with
  | .error failure => (x, .error failure)
  | .ok record =>
    if record.size = 0 then (x, .error (.emptyFile name))
    else match x.requestLock p name with
      | (x, .error failure) => (x, .error failure)
      | (x, .ok ()) =>
        x.askFor p x.config.deadline (.store (x.headerFor record))
          (x.piecesToSend name record.size) "store reply" stored?

/-! ### Fetching -/

/-- Brings the server's copy of a file into the mount, and tells its size. -/
def fetch (p : Peer σ) (x : Site σ) (name : String) : Site σ × Except Failure Nat :=
  match x.localRecord name with
  | .error failure => (x, .error failure)
  | .ok found =>
    match x.call p x.config.deadline (.fetch name (found.map FileRecord.version)) [] with
    | (x, .error failure) => (x, .error failure)
    | (x, .ok messages) =>
      let (mount, result) := x.mount.receive (p.today x.world) name none messages
      (x.withMount mount, result)

/-! ### The other calls -/

/-- Removes a file on the server, after asking for the lock. -/
def delete (p : Peer σ) (x : Site σ) (name : String) : Site σ × Except Failure Unit :=
  match x.requestLock p name with
  | (x, .error failure) => (x, .error failure)
  | (x, .ok ()) =>
    x.askFor p x.config.deadline (.delete name x.name) [] "delete reply" noContent?

/-- Name and time of every file on the server. -/
def list (p : Peer σ) (x : Site σ) : Site σ × Except Failure (List ListEntry) :=
  x.askFor p x.config.deadline .list [] "list reply" fun
    | .list entries => some entries
    | _ => none

/-- The record of a file on the server. -/
def stat (p : Peer σ) (x : Site σ) (name : String) : Site σ × Except Failure FileRecord :=
  x.askFor p x.config.deadline (.stat name) [] "stat reply" fun
    | .stat record => some record
    | _ => none

/-- The checksum of the server's copy, if it differs from that of the client's. -/
def checksum (p : Peer σ) (x : Site σ) (name : String) : Site σ × Except Failure UInt32 :=
  match x.ownRecord name with
  | .error failure => (x, .error failure)
  | .ok record =>
    x.askFor p x.config.deadline (.checksum name x.name record.checksum) [] "checksum reply" fun
      | .checksum sum => some sum
      | _ => none

/-- Whether the server's copy has the same time as the client's. -/
def compareMtime (p : Peer σ) (x : Site σ) (name : String) : Site σ × Except Failure Bool :=
  match x.ownRecord name with
  | .error failure => (x, .error failure)
  | .ok record =>
    x.askFor p x.config.deadline (.compareMtime name record.mtime) [] "mtime reply" fun
      | .sameTimestamp same => some same
      | _ => none

/-- Waits for a change on the server and asks for the manifest.  The call may take as long as
the wait and a call without one. -/
def changeNotification (p : Peer σ) (x : Site σ) : Site σ × Except Failure (List FileRecord) :=
  x.askFor p (x.config.notifyWait + x.config.deadline)
    (.changeNotification (.ofNat x.config.notifyWait)) [] "notification reply" fun
      | .manifest records => some records
      | _ => none

end Site

end MountSync
