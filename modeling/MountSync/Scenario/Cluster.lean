/-
Scripts for a server and its clients on a machine without a network.

No connection can be made, so calls fail as soon as they have to leave the client, and the
server serves nobody; the files and the lock table on either side are still there to be worked
on.  A script that waits for something that needs a connection comes to an end there.

The mounts lie side by side in one directory, so a link in one of them can lead to another.
-/
import MountSync.Scenario.Client
import MountSync.Scenario.Endpoint
import MountSync.Server.Basic

namespace MountSync.Scenario

/-- Why a script cannot be played to its end. -/
inductive Abort
  /-- A connection was to be made directly. -/
  | noConnection
  /-- Something that was waited for never happened. -/
  | neverHappened (what : String)
  deriving DecidableEq, Repr, Inhabited

/-- A file that shall have a content, or shall not be there. -/
structure Goal where
  /-- The mount, by the name of its owner. -/
  owner : String
  name : String
  content : Option Bytes
  deriving DecidableEq, Repr, Inhabited

/-- A step of a script. -/
inductive ClusterStep
  | file (owner : String) (step : FileStep)
  | lock (step : LockStep)
  | call (client : String) (step : ClientStep)
  /-- Makes a connection directly, or works on one. -/
  | connect
  /-- Waits until the server has counted that many calls and failed calls, and serves that
  many connections. -/
  | awaitServer (calls failed active : Nat)
  | sleep
  /-- Looks at the counters once the server serves that many connections. -/
  | stats (active : Nat)
  | serverConfig
  /-- Plays steps while a call waits for a change. -/
  | notifyDuring
  /-- Makes a call while a pass of some client is kept under way. -/
  | token (holder client : String) (step : ClientStep)
  /-- Keeps a mount in step in the background, plays steps, and waits for a goal. -/
  | sync (during : List ClusterStep) (goal : Goal)
  deriving Repr, Inhabited

inductive ClusterAnswer
  | file (a : FileAnswer)
  | lock (a : LockAnswer)
  | call (a : ClientAnswer)
  | nothing
  | stats (server : ServerStats) (locks : LockStats) (transfer : TransferStats) (feed : FeedStats)
  /-- The address, the number of workers, and whether there are no lock rows. -/
  | serverConfig (address : String) (workers : Nat) (noLocks : Bool)
  /-- Whether the call had to wait. -/
  | token (waited : Bool) (a : ClientAnswer)
  | during (answers : List ClusterAnswer)

/-- A server and its clients, who stand still as long as nobody acts. -/
structure ClusterStage where
  /-- The time of day. -/
  today : UnixTime
  server : Server
  clients : List (String × Player UnixTime)

namespace ClusterStage

/-- What clients find when they try to reach the server. -/
def network : Peer UnixTime := .unreachable .networkUnreachable

/-- The name under which the mount of the server goes. -/
def serverName : String := "server"

/-- A server and clients whose mounts are empty. -/
def create (today : UnixTime) (config : ServerConfig) (clients : List (String × ClientConfig)) :
    ClusterStage :=
  let names := serverName :: clients.map Prod.fst
  let tree := names.foldl (fun t name => t.put (mountPlace name) .directory) (scratchTree today)
  { today
    server := .create config ⟨tree, mountPlace serverName⟩
    clients := clients.map fun (name, config) =>
      (name, .create config ⟨tree, mountPlace name⟩ today) }

def mountOf? (s : ClusterStage) (owner : String) : Option Mount :=
  if owner = serverName then some s.server.endpoint.mount
  else (s.clients.lookup owner).map Player.mount

/-- Takes over what has become of the tree of files, which all mounts share. -/
def withTree (s : ClusterStage) (tree : FileTree) : ClusterStage :=
  let e := s.server.endpoint
  { s with
    server := s.server.withEndpoint (e.withMount (e.mount.withTree tree))
    clients := s.clients.map fun (name, x) => (name, x.withMount (x.mount.withTree tree)) }

def withPlayer (s : ClusterStage) (name : String) (x : Player UnixTime) : ClusterStage :=
  { s with clients := s.clients.map fun c => if c.1 = name then (name, x) else c }

def playFile (s : ClusterStage) (owner : String) (step : FileStep) :
    ClusterStage × FileAnswer :=
  match s.mountOf? owner with
  | none => (s, .done)
  | some mount =>
    let (mount, answer) := step.play mount s.today
    (s.withTree mount.tree, answer)

def playCall (s : ClusterStage) (client : String) (step : ClientStep) :
    ClusterStage × ClientAnswer :=
  match s.clients.lookup client with
  | none => (s, .unit (.ok ()))
  | some x =>
    let (x, answer) := x.play network step
    ((s.withPlayer client x).withTree x.mount.tree, answer)

/-- Whether the counters of the server have come to given values. -/
def counted (s : ClusterStage) (calls failed active : Nat) : Bool :=
  calls ≤ s.server.stats.totalCalls && failed ≤ s.server.stats.failedCalls
    && s.server.stats.activeConnections = active

/-- What reading gives that follows a name, if it gives anything. -/
def contentOf (m : Mount) (name : String) : Option Bytes :=
  match m.locate name with
  | .ok (_, .file f) => f.read.toOption
  | .ok (_, .special content) => content
  | _ => none

def isReached (s : ClusterStage) (g : Goal) : Bool :=
  match s.mountOf? g.owner with
  | some m => contentOf m g.name = g.content
  | none => false

mutual

/-- Plays one step with all that belongs to it. -/
def play (s : ClusterStage) : ClusterStep → Except Abort (ClusterStage × ClusterAnswer)
  | .file owner step => .ok ((s.playFile owner step).map id .file)
  | .lock step =>
    let (locks, answer) := step.play s.server.endpoint.locks
    .ok ({ s with server := s.server.withEndpoint (s.server.endpoint.withLocks locks) },
      .lock answer)
  | .call client step => .ok ((s.playCall client step).map id .call)
  | .connect => .error .noConnection
  | .awaitServer calls failed active =>
    if s.counted calls failed active then .ok (s, .nothing)
    else .error (.neverHappened "server counters")
  | .sleep => .ok (s, .nothing)
  | .stats active =>
    if s.counted 0 0 active then
      let e := s.server.endpoint
      .ok (s, .stats s.server.stats e.locks.stats e.stats e.feed.stats)
    else .error (.neverHappened "active connections")
  | .serverConfig =>
    let config := s.server.config
    .ok (s, .serverConfig config.address config.workers (s.server.endpoint.locks.size = 0))
  | .notifyDuring => .error (.neverHappened "parked notification")
  | .token holder client step =>
    let (s, answer) := s.playCall client step
    .ok (s, .token (holder = client && entersPass answer) answer)
  | .sync during goal =>
    match playSteps s during with
    | .error abort => .error abort
    | .ok (s, answers) =>
      if s.isReached goal then .ok (s, .during answers)
      else .error (.neverHappened "sync goal")

/-- Plays steps one after another. -/
def playSteps (s : ClusterStage) : List ClusterStep →
    Except Abort (ClusterStage × List ClusterAnswer)
  | [] => .ok (s, [])
  | step :: rest =>
    match play s step with
    | .error abort => .error abort
    | .ok (s, answer) =>
      match playSteps s rest with
      | .error abort => .error abort
      | .ok (s, answers) => .ok (s, answer :: answers)

end

/-- Sets the clock of the files in all mounts to that of the script. -/
def restampAll (s : ClusterStage) (step : Nat) : ClusterStage :=
  let names := serverName :: s.clients.map Prod.fst
  s.withTree (restamp s.server.endpoint.mount.tree s.today (names.map mountPlace) step)

/-- Plays steps from step number `number` on and notes, after each, the answer and the lock
rows of `names`. -/
def playAll (names : List String) : (number : Nat) → ClusterStage → List ClusterStep →
    Except Abort (ClusterStage × List (ClusterAnswer × List LockRow))
  | _, s, [] => .ok (s, [])
  | number, s, step :: rest =>
    match s.play step with
    | .error abort => .error abort
    | .ok (s, answer) =>
      let rows := lockRows s.server.endpoint.locks names
      match playAll names (number + 1) (s.restampAll number) rest with
      | .error abort => .error abort
      | .ok (s, notes) => .ok (s, (answer, rows) :: notes)

/-- What is in each mount, by the name of its owner. -/
def listings (s : ClusterStage) : List (String × Option (List DirectoryRow)) :=
  (serverName, directoryRows s.server.endpoint.mount) ::
    s.clients.map fun (name, x) => (name, directoryRows x.mount)

end ClusterStage

end MountSync.Scenario
