/-
What arrives on a connection.

A connection carries one call.  The server reads the call and, if it is a store, the content
behind it; a store that ends before its content leaves the rest to be read and thrown away,
so that the caller gets to see the reply.
-/
import MountSync.Endpoint.Store
import MountSync.Frame.Reader
import MountSync.Frame.Writer

namespace MountSync

/-- One message of a connection.  When there are no more messages the connection is still
open and silent. -/
inductive Message
  | binary (content : Bytes)
  /-- Text, and signs of life. -/
  | other
  /-- The other side says that it is done. -/
  | close
  | broken (reason : String)
  deriving DecidableEq, Repr, Inhabited

namespace Message

def ofClientFrame (f : ClientFrame) : Message := .binary f.encode

def ofServerFrame (f : ServerFrame) : Message := .binary f.encode

/-- What a message means to a store.  Some mean nothing. -/
def arrival? : Message → Option Arrival
  | binary content =>
    match ClientFrame.decode content with
    | .ok (.chunk piece) => some (.chunk piece)
    | .ok .endOfStream => some .ended
    | .ok (.call _ _) =>
      some (.refused (.link (.unexpectedFrame "call header inside a store stream")))
    | .error fault => some (.refused (.link (.deserialization fault.message)))
  | other => none
  | close => some (.broken .streamClosed)
  | broken reason => some (.broken (.streamBroken reason))

end Message

/-- The call that opens a connection, with the messages behind it. -/
structure Opening where
  /-- How many milliseconds the caller will wait. -/
  timeout : UInt64
  request : Request
  rest : List Message
  deriving DecidableEq, Repr, Inhabited

/-- Reads the call that opens a connection.  There is none if the first message with content
is anything else. -/
def Opening.read : List Message → Option Opening
  | [] => none
  | .other :: rest => read rest
  | .binary content :: rest =>
    match ClientFrame.decode content with
    | .ok (.call timeout request) => some ⟨timeout, request, rest⟩
    | _ => none
  | .close :: _ => none
  | .broken _ :: _ => none

namespace Arrival

/-- The content bytes of a stream. -/
def payload : List Arrival → Nat
  | [] => 0
  | a :: rest => a.size + payload rest

/-- Reads a stream to its end and throws it away.  Tells how many content bytes there were,
and what lies behind the end. -/
def drain : List Arrival → Nat × List Arrival
  | [] => (0, [])
  | a :: rest =>
    if a.isLast then (0, rest)
    else
      let (bytes, left) := drain rest
      (a.size + bytes, left)

end Arrival

end MountSync
