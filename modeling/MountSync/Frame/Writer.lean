/-
Frames as bytes.

Fields stand in order without separators.  A variant is its number, a string or sequence
its length and then its items, a truth value or the presence of an optional field one byte.
-/
import MountSync.Frame.Basic
import MountSync.Frame.Word

namespace MountSync.Frame

def writeWord (w : UInt32) : Bytes := writeNat w.toNat

def writeLong (w : UInt64) : Bytes := writeNat w.toNat

def writeTime (t : UnixTime) : Bytes := writeNat (zigzag t)

def writeBool (b : Bool) : Bytes := [if b then 1 else 0]

def writeBytes (bytes : Bytes) : Bytes := writeNat bytes.length ++ bytes

/-- The bytes of a string in UTF-8. -/
def textBytes (s : String) : Bytes := s.toUTF8.data.toList

def writeText (s : String) : Bytes := writeBytes (textBytes s)

def writeOption {α : Type} (write : α → Bytes) : Option α → Bytes
  | none => [0]
  | some a => 1 :: write a

def writeList {α : Type} (write : α → Bytes) (items : List α) : Bytes :=
  writeNat items.length ++ items.flatMap write

def writeVersion (v : FileVersion) : Bytes := writeWord v.checksum ++ writeTime v.mtime

def writeRecord (r : FileRecord) : Bytes :=
  writeText r.name ++ (writeLong r.size ++ (writeWord r.checksum
    ++ (writeTime r.mtime ++ writeTime r.ctime)))

def writeEntry (e : ListEntry) : Bytes := writeText e.name ++ writeTime e.mtime

def writeHeader (h : StoreHeader) : Bytes :=
  writeText h.name ++ (writeLong h.size ++ (writeText h.client
    ++ (writeWord h.checksum ++ writeTime h.mtime)))

def writeRequest : Request → Bytes
  | .requestLock name client => writeNat 0 ++ (writeText name ++ writeText client)
  | .store header => writeNat 1 ++ writeHeader header
  | .fetch name mine => writeNat 2 ++ (writeText name ++ writeOption writeVersion mine)
  | .delete name client => writeNat 3 ++ (writeText name ++ writeText client)
  | .list => writeNat 4
  | .stat name => writeNat 5 ++ writeText name
  | .checksum name client sum =>
    writeNat 6 ++ (writeText name ++ (writeText client ++ writeWord sum))
  | .compareMtime name mtime => writeNat 7 ++ (writeText name ++ writeTime mtime)
  | .changeNotification maxWait => writeNat 8 ++ writeLong maxWait

def writeReply : Reply → Bytes
  | .empty => writeNat 0
  | .stored name => writeNat 1 ++ writeText name
  | .fetched bytes => writeNat 2 ++ writeLong bytes
  | .list entries => writeNat 3 ++ writeList writeEntry entries
  | .stat record => writeNat 4 ++ writeRecord record
  | .checksum sum => writeNat 5 ++ writeWord sum
  | .sameTimestamp same => writeNat 6 ++ writeBool same
  | .manifest records => writeNat 7 ++ writeList writeRecord records

def writeStatus (s : Status) : Bytes := writeNat s.code.number ++ writeText s.message

def writeChunk (c : FetchChunk) : Bytes :=
  writeLong c.fileSize ++ (writeBool c.copyNeeded ++ writeBytes c.content)

end MountSync.Frame

namespace MountSync

open MountSync.Frame

/-- The bytes of a client's frame. -/
def ClientFrame.encode : ClientFrame → Bytes
  | .call deadline request => writeNat 0 ++ (writeLong deadline ++ writeRequest request)
  | .chunk content => writeNat 1 ++ writeBytes content
  | .endOfStream => writeNat 2

/-- The bytes of a server's frame.  Reply and refusal are the two sides of one result. -/
def ServerFrame.encode : ServerFrame → Bytes
  | .fetch c => writeNat 0 ++ writeChunk c
  | .reply r => writeNat 1 ++ (writeNat 0 ++ writeReply r)
  | .refusal s => writeNat 1 ++ (writeNat 1 ++ writeStatus s)

end MountSync
