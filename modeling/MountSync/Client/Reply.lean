/-
How a client understands what comes back.
-/
import MountSync.Server.Message

namespace MountSync

/-- A frame that has no place in the call. -/
def Failure.unexpected (what : String) : Failure := .link (.unexpectedFrame what)

/-- Reads the next frame.  If nothing more comes the deadline of the call passes. -/
def Message.nextFrame : List Message → Except Failure (ServerFrame × List Message)
  | [] => .error .deadlineExceeded
  | .other :: rest => nextFrame rest
  | .binary content :: rest =>
    match ServerFrame.decode content with
    | .ok frame => .ok (frame, rest)
    | .error fault => .error (.link (.deserialization fault.message))
  | .close :: _ => .error (.link .connectionClosed)
  | .broken reason :: _ => .error (.link (.transport ("connection broken: " ++ reason)))

/-- Reads the reply to a call that is no fetch. -/
def Message.replyIn (messages : List Message) : Except Failure Reply :=
  match nextFrame messages with
  | .error failure => .error failure
  | .ok (.reply reply, _) => .ok reply
  | .ok (.refusal status, _) => .error (.ofStatus status)
  | .ok (.fetch _, _) => .error (.unexpected "fetch chunk outside a fetch")

/-! ### The content of a fetch

Content goes to a temporary file, which gets its name only when the reply has come and says
that this was everything. -/

/-- A file that is being received. -/
structure Download where
  /-- The name of the temporary file. -/
  temporary : EntryName
  /-- The pieces, the newest first. -/
  pieces : List Bytes
  received : Nat
  deriving DecidableEq, Repr, Inhabited

namespace Download

def accept (d : Download) (piece : Bytes) : Download :=
  ⟨d.temporary, piece :: d.pieces, d.received + piece.length⟩

def content (d : Download) : Bytes := d.pieces.reverse.flatten

/-- Throws away what has arrived. -/
def discard (m : Mount) : Option Download → Mount
  | none => m
  | some d => m.drop d.temporary

/-- Takes one piece, into a new temporary file if it is the first. -/
def take (m : Mount) (now : UnixTime) (arrived : Option Download) (piece : Bytes) :
    Except IoFault (Mount × Download) :=
  match arrived with
  | some d => .ok (m, d.accept piece)
  | none =>
    match m.createPartial now with
    | .error fault => .error fault
    | .ok (m, temporary) => .ok (m, (⟨temporary, [], 0⟩ : Download).accept piece)

/-- Puts the content in place once the server says that `bytes` bytes were sent. -/
def conclude (m : Mount) (now : UnixTime) (name : String) (arrived : Option Download)
    (bytes : UInt64) : Mount × Except Failure Nat :=
  match arrived with
  | none => (m, .error (.unexpected "fetch finished without content"))
  | some d =>
    if d.received ≠ bytes.toNat then
      (discard m (some d), .error (.incomplete d.received bytes))
    else match m.install d.temporary name d.content now with
      | .error fault => (discard m (some d), .error (.io fault))
      | .ok m => (m, .ok d.received)

end Download

/-- Receives a file under a name.  `arrived` is what has arrived before. -/
def Mount.receive (now : UnixTime) (name : String) :
    Mount → Option Download → List Message → Mount × Except Failure Nat
  | m, arrived, [] => (Download.discard m arrived, .error .deadlineExceeded)
  | m, arrived, .other :: rest => receive now name m arrived rest
  | m, arrived, .close :: _ =>
    (Download.discard m arrived, .error (.link .connectionClosed))
  | m, arrived, .broken reason :: _ =>
    (Download.discard m arrived, .error (.link (.transport ("connection broken: " ++ reason))))
  | m, arrived, .binary content :: rest =>
    match ServerFrame.decode content with
    | .error fault =>
      (Download.discard m arrived, .error (.link (.deserialization fault.message)))
    | .ok (.fetch chunk) =>
      if chunk.copyNeeded then
        match Download.take m now arrived chunk.content with
        | .error fault => (m, .error (.io fault))
        | .ok (m, d) => receive now name m (some d) rest
      else receive now name m arrived rest
    | .ok (.refusal status) => (Download.discard m arrived, .error (.ofStatus status))
    | .ok (.reply (.fetched bytes)) => Download.conclude m now name arrived bytes
    | .ok (.reply _) => (Download.discard m arrived, .error (.unexpected "fetch reply"))

end MountSync
