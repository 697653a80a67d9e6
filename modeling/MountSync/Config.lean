/-
What a server and a client are told when they are made.

All waiting times are in milliseconds.  Nothing is read from the surroundings of the
process: the name of a client and the directories are part of its settings.
-/
import MountSync.Failure

namespace MountSync

/-- The size of the pieces in which content is sent, unless something else is asked for. -/
def defaultChunkSize : Nat := 4096

structure ServerConfig where
  /-- Where the server listens. -/
  address : String
  /-- The directory whose regular files are served. -/
  mountPath : String
  /-- How many calls are worked on at once; those that wait for a change do not count. -/
  workers : Nat
  /-- The size of the pieces in which a file is sent. -/
  chunkSize : Nat
  /-- The longest that a call may wait for a change. -/
  maxNotifyWait : Nat
  /-- How many changes the feed is asked to keep. -/
  feedCapacity : Nat
  deriving DecidableEq, Repr, Inhabited

namespace ServerConfig

def standard : ServerConfig where
  address := "127.0.0.1:50051"
  mountPath := "mnt/server"
  workers := 8
  chunkSize := defaultChunkSize
  maxNotifyWait := 30000
  feedCapacity := 256

/-- Small pieces, short waits, and whatever address is free. -/
def forTesting (mountPath : String) : ServerConfig where
  address := "127.0.0.1:0"
  mountPath := mountPath
  workers := 4
  chunkSize := 64
  maxNotifyWait := 500
  feedCapacity := 64

end ServerConfig

structure ClientConfig where
  serverUrl : String
  /-- The directory that is kept in step with the server. -/
  mountPath : String
  client : ClientId
  /-- How long a call may take. -/
  deadline : Nat
  /-- The size of the pieces in which a file is sent. -/
  chunkSize : Nat
  /-- How long the server may keep a call that waits for a change. -/
  notifyWait : Nat
  /-- The pause after a round that failed. -/
  retryBackoff : Nat
  /-- Whether edits in the mount are looked for and sent on their own. -/
  watchLocal : Bool
  deriving DecidableEq, Repr, Inhabited

namespace ClientConfig

def standard (client : ClientId) : ClientConfig where
  serverUrl := "ws://127.0.0.1:50051"
  mountPath := "mnt/client"
  client := client
  deadline := 10000
  chunkSize := defaultChunkSize
  notifyWait := 10000
  retryBackoff := 5000
  watchLocal := false

/-- Small pieces and short waits. -/
def forTesting (serverUrl mountPath : String) (client : ClientId) : ClientConfig where
  serverUrl := serverUrl
  mountPath := mountPath
  client := client
  deadline := 5000
  chunkSize := 64
  notifyWait := 200
  retryBackoff := 50
  watchLocal := false

end ClientConfig

/-- The tag that tells apart the clients of one host: the digits of the session's number. -/
def sessionTag (session : UInt32) : String := String.ofList (Text.wordDigits session)

/-- The name of a client: its host and the tag of its session. -/
def clientIdOf (host : String) (session : UInt32) : ClientId := host ++ "-" ++ sessionTag session

end MountSync
