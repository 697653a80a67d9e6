/-
Why a call fails, and how that is told.

A failure is a cause with the facts that belong to it.  Its kind, its wire status and its
wording are functions of the cause, so that a law about who is refused never has to read
a sentence, and the sentences stand in one place.
-/
import MountSync.Record
import MountSync.Text.Quoted

namespace MountSync

/-- Who is calling.  Locks are kept by this name. -/
abbrev ClientId := String

/-! ### Refusals of the machine below -/

/-- What the operating system says when it refuses. -/
inductive IoFault
  | noSuchFile
  | notDirectory
  | isDirectory
  | nameTooLong
  | tooManyLinks
  | networkUnreachable
  | connectionRefused
  /-- A name holds the character that ends names. -/
  | zeroInName
  | permissionDenied
  | invalidArgument
  | inputOutput
  | other (text : String)
  deriving DecidableEq, Repr, Inhabited

/-- The words of the operating system, with its error number where there is one. -/
def IoFault.message : IoFault → String
  | .noSuchFile => "No such file or directory (os error 2)"
  | .notDirectory => "Not a directory (os error 20)"
  | .isDirectory => "Is a directory (os error 21)"
  | .nameTooLong => "File name too long (os error 36)"
  | .tooManyLinks => "Too many levels of symbolic links (os error 40)"
  | .networkUnreachable => "Network is unreachable (os error 101)"
  | .connectionRefused => "Connection refused (os error 111)"
  | .zeroInName => "file name contained an unexpected NUL byte"
  | .permissionDenied => "Permission denied (os error 13)"
  | .invalidArgument => "Invalid argument (os error 22)"
  | .inputOutput => "Input/output error (os error 5)"
  | .other text => text

/-- What goes wrong between two peers before a reply is understood. -/
inductive LinkFault
  | serialization (reason : String)
  | deserialization (reason : String)
  /-- A frame that decodes but has no place in the call. -/
  | unexpectedFrame (what : String)
  | connectionClosed
  | connectFailed (reason : String)
  | transport (reason : String)
  deriving DecidableEq, Repr, Inhabited

def LinkFault.message : LinkFault → String
  | .serialization reason => "Serialization error: " ++ reason
  | .deserialization reason => "Deserialization error: " ++ reason
  | .unexpectedFrame what => "Unexpected frame: " ++ what
  | .connectionClosed => "Connection closed"
  | .connectFailed reason => "Connection failed: " ++ reason
  | .transport reason => "Transport error: " ++ reason

/-! ### Status on the wire -/

/-- The code in the reply to a call, in the order of its numbers. -/
inductive StatusCode
  | ok
  /-- The file is absent where it is required. -/
  | notFound
  /-- The checksums are equal, nothing is transferred. -/
  | alreadyExists
  /-- A stale source or a conflict of ownership. -/
  | cancelled
  /-- Another client holds the lock. -/
  | resourceExhausted
  | deadlineExceeded
  | internal
  deriving DecidableEq, Repr, Inhabited

def StatusCode.number : StatusCode → Nat
  | .ok => 0
  | .notFound => 1
  | .alreadyExists => 2
  | .cancelled => 3
  | .resourceExhausted => 4
  | .deadlineExceeded => 5
  | .internal => 6

/-- The name under which a code is logged. -/
def StatusCode.name : StatusCode → String
  | .ok => "OK"
  | .notFound => "NOT_FOUND"
  | .alreadyExists => "ALREADY_EXISTS"
  | .cancelled => "CANCELLED"
  | .resourceExhausted => "RESOURCE_EXHAUSTED"
  | .deadlineExceeded => "DEADLINE_EXCEEDED"
  | .internal => "INTERNAL"

/-- How a call that failed is reported to the caller. -/
structure Status where
  code : StatusCode
  message : String
  deriving DecidableEq, Repr, Inhabited

/-! ### Kinds and causes -/

/-- The kinds of failure a caller can tell apart. -/
inductive FailureKind
  | notFound
  | alreadyExists
  | cancelled
  | resourceExhausted
  | deadlineExceeded
  | internal
  | io
  | link
  deriving DecidableEq, Repr, Inhabited

/-- The code under which a kind crosses the wire.  What the machine refuses is internal to
the server, and a broken link cancels the call. -/
def FailureKind.code : FailureKind → StatusCode
  | .notFound => .notFound
  | .alreadyExists => .alreadyExists
  | .cancelled => .cancelled
  | .resourceExhausted => .resourceExhausted
  | .deadlineExceeded => .deadlineExceeded
  | .internal => .internal
  | .io => .internal
  | .link => .cancelled

/-- The kind that a reported code stands for.  No failure is reported as a success; one that
pretends to be is taken for a cancellation. -/
def StatusCode.kind : StatusCode → FailureKind
  | .ok => .cancelled
  | .notFound => .notFound
  | .alreadyExists => .alreadyExists
  | .cancelled => .cancelled
  | .resourceExhausted => .resourceExhausted
  | .deadlineExceeded => .deadlineExceeded
  | .internal => .internal

/-- Why a call fails. -/
inductive Failure
  /-- The name is not that of a mount entry. -/
  | invalidName (name : String)
  | notOnServer (name : String)
  | notInMount (name : String)
  /-- Empty files are not stored. -/
  | emptyFile (name : String)
  | upToDateOnServer (name : String)
  | upToDateOnClient (name : String)
  | sameChecksum (name : String)
  | serverNewer (name : String)
  | clientNewer (name : String)
  /-- The lock was refused; `owner` holds it, if it is still held. -/
  | locked (name : String) (owner : Option ClientId)
  | notLockHolder (client : ClientId) (name : String)
  | lockNotReleased (name : String)
  | lockNotDeleted (name : String)
  /-- A store stream went past the size in its header. -/
  | oversized (declared : UInt64)
  /-- A store stream ended before the size in its header. -/
  | cutShort (received : Nat) (declared : UInt64)
  | contentMismatch (received declared : UInt32)
  | streamClosed
  | streamBroken (reason : String)
  /-- A file lost bytes while it was being sent. -/
  | shrank (name : String) (sent : Nat) (announced : UInt64)
  /-- Nobody takes the chunks of a fetch any more. -/
  | readerGone
  | cannotRemove (name : String) (fault : IoFault)
  /-- The chunks of a fetch do not add up to what the reply says. -/
  | incomplete (received : Nat) (announced : UInt64)
  | deadlineExceeded
  | io (fault : IoFault)
  | link (fault : LinkFault)
  /-- A failure that is known only by what a peer or a stream told about it. -/
  | reported (code : StatusCode) (message : String)
  deriving DecidableEq, Repr, Inhabited

namespace Failure

def kind : Failure → FailureKind
  | .invalidName _ | .notOnServer _ | .notInMount _ | .emptyFile _ => .notFound
  | .upToDateOnServer _ | .upToDateOnClient _ | .sameChecksum _ => .alreadyExists
  | .serverNewer _ | .clientNewer _ | .notLockHolder _ _ => .cancelled
  | .locked _ _ => .resourceExhausted
  | .lockNotReleased _ | .lockNotDeleted _ => .internal
  | .oversized _ | .cutShort _ _ | .contentMismatch _ _ => .cancelled
  | .streamClosed | .streamBroken _ | .shrank _ _ _ | .readerGone => .cancelled
  | .cannotRemove _ _ | .incomplete _ _ => .cancelled
  | .deadlineExceeded => .deadlineExceeded
  | .io _ => .io
  | .link _ => .link
  | .reported code _ => code.kind

/-- The sentence that names the cause. -/
def detail : Failure → String
  | .invalidName name => "invalid file name " ++ Text.quoted name
  | .notOnServer name => name ++ " is not on the server"
  | .notInMount name => name ++ " is not in the mount"
  | .emptyFile name => name ++ " is empty"
  | .upToDateOnServer name => name ++ " is already up to date on the server"
  | .upToDateOnClient name => name ++ " is already up to date on the client"
  | .sameChecksum name => name ++ " has the same checksum on the server"
  | .serverNewer name => "server copy of " ++ name ++ " is newer"
  | .clientNewer name => "client copy of " ++ name ++ " is newer"
  | .locked name owner => name ++ " is locked by " ++ owner.getD "unknown"
  | .notLockHolder client name => client ++ " does not hold the lock for " ++ name
  | .lockNotReleased name => "lock on " ++ name ++ " could not be released"
  | .lockNotDeleted name => "lock on " ++ name ++ " could not be deleted"
  | .oversized declared => "received more than the declared " ++ toString declared.toNat ++ " bytes"
  | .cutShort received declared =>
    "stream ended at " ++ toString received ++ "/" ++ toString declared.toNat ++ " bytes"
  | .contentMismatch received declared =>
    "content checksum " ++ Text.hexOfWord received ++ " does not match declared "
      ++ Text.hexOfWord declared
  | .streamClosed => "client closed the store stream early"
  | .streamBroken reason => "store stream broken: " ++ reason
  | .shrank name sent announced =>
    name ++ " shrank during transfer (" ++ toString sent ++ "/" ++ toString announced.toNat
      ++ " bytes)"
  | .readerGone => "client stopped reading"
  | .cannotRemove name fault => "could not remove " ++ name ++ ": " ++ fault.message
  | .incomplete received announced =>
    "received " ++ toString received ++ " of " ++ toString announced.toNat ++ " bytes"
  | .deadlineExceeded => ""
  | .io fault => fault.message
  | .link fault => fault.message
  | .reported _ message => message

/-- The full wording: the kind, then the cause.  An expired deadline needs no cause, and a
fault of the link speaks for itself. -/
def message (f : Failure) : String :=
  match f.kind with
  | .notFound => "not found: " ++ f.detail
  | .alreadyExists => "already synchronized: " ++ f.detail
  | .cancelled => "cancelled: " ++ f.detail
  | .resourceExhausted => "lock unavailable: " ++ f.detail
  | .deadlineExceeded => "deadline exceeded"
  | .internal => "internal error: " ++ f.detail
  | .io => "I/O error: " ++ f.detail
  | .link => f.detail

/-- The code under which a failure crosses the wire. -/
def code (f : Failure) : StatusCode := f.kind.code

/-- The status that tells a caller of this failure. -/
def status (f : Failure) : Status := ⟨f.code, f.message⟩

/-- What a status tells the caller.  The sentence of an expired deadline is dropped: both
sides know it. -/
def ofStatus (s : Status) : Failure :=
  match s.code with
  | .deadlineExceeded => .deadlineExceeded
  | code => .reported code s.message

/-- Failures that belong to the normal course of things: somebody else holds the lock, the
copies are the same, or the other copy is newer. -/
def isExpected (f : Failure) : Bool :=
  match f.kind with
  | .alreadyExists | .resourceExhausted | .cancelled => true
  | _ => false

end Failure

end MountSync
