/-
The other side of a client.

A client makes one connection for each call, sends its frames, and gets messages back.  What
is on the other side — a server, a script, or a network that leads nowhere — is a state and
a way to carry out calls on it.
-/
import MountSync.Server.Basic

namespace MountSync

/-- What a client sees of the other side. -/
structure Peer (σ : Type) where
  /-- What the calendar shows. -/
  today : σ → UnixTime
  /-- Makes a connection, sends frames, and tells what comes back within `timeout`
  milliseconds; or why there is no connection. -/
  exchange : σ → (timeout : Nat) → List ClientFrame → σ × Except LinkFault (List Message)

namespace Peer

/-- A network that leads nowhere.  The state is what the calendar shows. -/
def unreachable (fault : IoFault) : Peer UnixTime where
  today := id
  exchange now _ _ := (now, .error (.connectFailed ("IO error: " ++ fault.message)))

/-- A server, and the time. -/
structure Online where
  server : Server
  now : Moment
  deriving Inhabited

/-- When a server is done with a call.  A call that waits for a change waits to the end,
because nothing else happens meanwhile. -/
def doneAt (x : Online) : List ClientFrame → Nat
  | .call timeout (.changeNotification maxWait) :: _ =>
    x.now.instant + min (min maxWait.toNat x.server.config.maxNotifyWait) timeout.toNat
  | _ => x.now.instant

/-- A server that is reached without delay and serves nobody else.  A call that may take no
time at all is given up before it is made. -/
def server : Peer Online where
  today x := x.now.calendar
  exchange x timeout frames :=
    if timeout = 0 then (x, .ok [])
    else
      let (server, answers) := x.server.serve (.atOnce x.now) (frames.map .ofClientFrame)
      (⟨server, { x.now with instant := doneAt x frames }⟩, .ok (answers.map .ofServerFrame ++ [.close]))

/-- A script: what is sent back on each connection, one after another.  Frames that a client
sends are kept. -/
structure Script where
  today : UnixTime
  conversations : List (List Message)
  sent : List ClientFrame
  deriving DecidableEq, Repr, Inhabited

/-- A peer that follows a script, and closes connections that the script says nothing of. -/
def scripted : Peer Script where
  today x := x.today
  exchange x _ frames :=
    match x.conversations with
    | [] => ({ x with sent := x.sent ++ frames }, .ok [.close])
    | messages :: rest =>
      (⟨x.today, rest, x.sent ++ frames⟩, .ok messages)

end Peer

end MountSync
