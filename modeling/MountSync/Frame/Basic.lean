/-
What client and server say to each other.

A call is one request from a client, followed by the content if the request is a store.
The server answers with the content if the request was a fetch, and last with exactly one
reply or refusal.
-/
import MountSync.Failure

namespace MountSync

/-- What a client announces before it sends a file. -/
structure StoreHeader where
  name : String
  size : UInt64
  client : ClientId
  checksum : UInt32
  mtime : UnixTime
  deriving DecidableEq, Repr, Inhabited

/-- The version of the copy that a header announces. -/
def StoreHeader.version (h : StoreHeader) : FileVersion := ⟨h.checksum, h.mtime⟩

/-- What a client can ask for. -/
inductive Request
  | requestLock (name : String) (client : ClientId)
  | store (header : StoreHeader)
  /-- `mine` is the version of the caller's copy, if it has one. -/
  | fetch (name : String) (mine : Option FileVersion)
  | delete (name : String) (client : ClientId)
  | list
  | stat (name : String)
  /-- Compares a checksum with the server's copy without moving content. -/
  | checksum (name : String) (client : ClientId) (checksum : UInt32)
  /-- Compares a modification time with the server's copy. -/
  | compareMtime (name : String) (mtime : UnixTime)
  /-- Waits for a change, at most for the given number of milliseconds, and asks for the
  manifest. -/
  | changeNotification (maxWait : UInt64)
  deriving DecidableEq, Repr, Inhabited

namespace Request

/-- The name of a request in logs and counters. -/
def label : Request → String
  | requestLock _ _ => "RequestLock"
  | store _ => "Store"
  | fetch _ _ => "Fetch"
  | delete _ _ => "Delete"
  | list => "List"
  | stat _ => "Stat"
  | checksum _ _ _ => "Checksum"
  | compareMtime _ _ => "CompareMtime"
  | changeNotification _ => "ChangeNotification"

/-- The file and the client of a call that runs under the file's lock. -/
def lockHolder? : Request → Option (String × ClientId)
  | store h => some (h.name, h.client)
  | delete name client => some (name, client)
  | _ => none

/-- The file that a request names, if it names one. -/
def fileName? : Request → Option String
  | requestLock name _ => some name
  | store h => some h.name
  | fetch name _ => some name
  | delete name _ => some name
  | stat name => some name
  | checksum name _ _ => some name
  | compareMtime name _ => some name
  | list => none
  | changeNotification _ => none

end Request

/-- What a call that succeeds answers. -/
inductive Reply
  | empty
  | stored (name : String)
  | fetched (bytes : UInt64)
  | list (entries : List ListEntry)
  | stat (record : FileRecord)
  | checksum (checksum : UInt32)
  | sameTimestamp (same : Bool)
  | manifest (records : List FileRecord)
  deriving DecidableEq, Repr, Inhabited

/-- One message of a fetch.  If the caller's copy needs no replacing there is a single one,
without content. -/
structure FetchChunk where
  fileSize : UInt64
  copyNeeded : Bool
  content : Bytes
  deriving DecidableEq, Repr, Inhabited

/-- What a client sends. -/
inductive ClientFrame
  /-- Opens a call and says how many milliseconds the caller will wait. -/
  | call (deadline : UInt64) (request : Request)
  | chunk (content : Bytes)
  | endOfStream
  deriving DecidableEq, Repr, Inhabited

/-- What a server sends. -/
inductive ServerFrame
  | fetch (chunk : FetchChunk)
  | reply (reply : Reply)
  | refusal (status : Status)
  deriving DecidableEq, Repr, Inhabited

end MountSync
