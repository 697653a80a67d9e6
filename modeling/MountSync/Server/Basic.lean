/-
The server.

Every call has a connection of its own.  A call that works on files takes one of a limited
number of workers; a call that waits for a change takes none, so that those who wait never
keep others from working.  The reply is the last frame of a connection.
-/
import MountSync.Config
import MountSync.Endpoint.Delete
import MountSync.Endpoint.Fetch
import MountSync.Endpoint.Query
import MountSync.Server.Message

namespace MountSync

/-- Counters for the traffic of a server.  They have no bound; counters in words of 64 bits show them
modulo 2^64. -/
structure ServerStats where
  totalConnections : Nat
  activeConnections : Nat
  totalCalls : Nat
  failedCalls : Nat
  /-- Content bytes of store streams, those thrown away too. -/
  bytesIn : Nat
  /-- Bytes of the frames of fetches. -/
  bytesOut : Nat
  deriving DecidableEq, Repr, Inhabited

def ServerStats.zero : ServerStats := ⟨0, 0, 0, 0, 0, 0⟩

structure Server where
  config : ServerConfig
  endpoint : Endpoint
  /-- How many workers are at work on other calls. -/
  busy : Nat
  stats : ServerStats
  deriving Inhabited

namespace Server

/-- A server that serves a mount. -/
def create (config : ServerConfig) (mount : Mount) : Server where
  config := config
  endpoint := .create mount config.chunkSize config.feedCapacity
  busy := 0
  stats := .zero

/-- How many calls are worked on at once: at least one. -/
def workers (s : Server) : Nat := max s.config.workers 1

def withEndpoint (s : Server) (e : Endpoint) : Server := { s with endpoint := e }

def count (s : Server) (change : ServerStats → ServerStats) : Server :=
  { s with stats := change s.stats }

end Server

/-! ### One call -/

/-- What a call leaves behind. -/
structure Outcome where
  endpoint : Endpoint
  result : Except Failure Reply
  /-- The messages of a fetch. -/
  messages : List FetchChunk
  /-- What a store did not take of its stream. -/
  rest : List Arrival

namespace Outcome

/-- The outcome of a call that neither sends messages nor takes any. -/
def plain {α : Type} (stream : List Arrival) (reply : α → Reply)
    (r : Endpoint × Except Failure α) : Outcome where
  endpoint := r.1
  result := r.2.map reply
  messages := []
  rest := stream

end Outcome

/-- Carries out a call on an endpoint.  `stream` is what follows the call on its
connection. -/
def Endpoint.dispatch (e : Endpoint) (deadline : Deadline) (s : Schedule) (stream : List Arrival)
    (request : Request) : Outcome :=
  let plain {α : Type} (reply : α → Reply) (r : Endpoint × Except Failure α) : Outcome :=
    .plain stream reply r
  match request with
  | .requestLock name client =>
    plain (fun _ => .empty) (e.requestLock name client deadline s.arrival.instant)
  | .store header =>
    let (e, result, rest) := e.storeFrom header deadline s stream
    ⟨e, result.map .stored, [], rest⟩
  | .fetch name mine =>
    let (e, result, messages) :=
      e.fetch name mine deadline s (fun _ => readLimit) (fun _ => .delivered)
    ⟨e, result.map fun bytes => .fetched (.ofNat bytes), messages, stream⟩
  | .delete name client => plain (fun _ => .empty) (e.delete name client deadline s)
  | .list => plain .list (e, e.list deadline s.arrival.instant)
  | .stat name => plain .stat (e, e.stat name deadline s.arrival.instant)
  | .checksum name client checksum =>
    plain .checksum (e.probe name client checksum deadline s.arrival)
  | .compareMtime name mtime =>
    plain .sameTimestamp (e, e.compareMtime name mtime deadline s.arrival.instant)
  | .changeNotification maxWait =>
    let (e, _, result) := e.manifest s.arrival.instant maxWait.toNat deadline
    plain .manifest (e, result)

/-- Lets go of a call whose deadline passed while all workers were at work. -/
def Endpoint.expire (e : Endpoint) (stream : List Arrival) (request : Request) : Outcome where
  endpoint :=
    match request.lockHolder? with
    | some (name, client) => e.abandonExpired name client
    | none => e
  result := .error .deadlineExceeded
  messages := []
  rest := stream

namespace Server

/-- The request with the wait for a change cut down to what the server allows. -/
def limitWait (s : Server) : Request → Request
  | .changeNotification maxWait =>
    .changeNotification (.ofNat (min maxWait.toNat s.config.maxNotifyWait))
  | request => request

/-- Whether a request is worked on at once: it needs no worker, or there is one.  Other calls
go on for as long as this one can wait. -/
def canStart (s : Server) : Request → Bool
  | .changeNotification _ => true
  | _ => s.busy < s.workers

/-- Carries out a call, or lets go of it. -/
def work (s : Server) (deadline : Deadline) (times : Schedule) (stream : List Arrival)
    (request : Request) : Outcome :=
  if s.canStart request then s.endpoint.dispatch deadline times stream (s.limitWait request)
  else s.endpoint.expire stream request

/-- The content bytes that are read from a connection: those that a store took, and if it
stopped before the end of its stream, those behind them. -/
def bytesRead (request : Request) (stream rest : List Arrival) : Nat :=
  let taken := stream.take (stream.length - rest.length)
  match request with
  | .store _ =>
    if taken.any Arrival.isLast then Arrival.payload taken
    else Arrival.payload taken + (Arrival.drain rest).1
  | _ => 0

/-- The frames that answer a call: the messages of a fetch, and last the reply. -/
def frames (o : Outcome) : List ServerFrame :=
  o.messages.map .fetch ++
    [match o.result with
      | .ok reply => .reply reply
      | .error failure => .refusal failure.status]

/-- The bytes of the messages of a fetch. -/
def bytesSent : List FetchChunk → Nat
  | [] => 0
  | m :: rest => (ServerFrame.fetch m).encode.length + bytesSent rest

/-- The counters after a call. -/
def countCall (bytesIn bytesOut : Nat) (failed : Bool) (s : ServerStats) : ServerStats :=
  { s with
    totalCalls := s.totalCalls + 1
    failedCalls := s.failedCalls + if failed then 1 else 0
    bytesIn := s.bytesIn + bytesIn
    bytesOut := s.bytesOut + bytesOut }

/-- Carries out the call that opened a connection. -/
def serveCall (s : Server) (times : Schedule) (o : Opening) : Server × List ServerFrame :=
  let deadline := Deadline.after times.arrival.instant o.timeout.toNat
  let stream := o.rest.filterMap Message.arrival?
  let outcome := s.work deadline times stream o.request
  let bytesIn := bytesRead o.request stream outcome.rest
  let failed := outcome.result matches .error _
  ((s.withEndpoint outcome.endpoint).count
    (countCall bytesIn (bytesSent outcome.messages) failed), frames outcome)

/-- Serves a connection on which the given messages arrive, and tells the frames that are
sent.  Without a call there is no reply. -/
def serve (s : Server) (times : Schedule) (messages : List Message) : Server × List ServerFrame :=
  let s := s.count fun n => { n with totalConnections := n.totalConnections + 1 }
  match Opening.read messages with
  | none => (s, [])
  | some opening => s.serveCall times opening

end Server

end MountSync
