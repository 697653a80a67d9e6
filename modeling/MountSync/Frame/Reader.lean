/-
Bytes as frames.

A reader takes what it needs from the front of the input and hands on the rest, so what
follows a frame is never looked at.  Every reader here undoes one writer.  None of them asks
how long the whole input is, so the time that reading takes grows with what is read.
-/
import MountSync.Frame.Writer
import MountSync.Text.Utf8

namespace MountSync.Frame

/-- Takes a value off the front of the input. -/
def Reader (α : Type) : Type := Bytes → Except DecodeFault (α × Bytes)

namespace Reader

/-- Takes nothing. -/
def yield {α : Type} (a : α) : Reader α := fun input => .ok (a, input)

/-- Refuses whatever the input is. -/
def refuse {α : Type} (fault : DecodeFault) : Reader α := fun _ => .error fault

/-- Reads a value and then what that value calls for. -/
def andThen {α β : Type} (read : Reader α) (next : α → Reader β) : Reader β := fun input =>
  match read input with
  | .error fault => .error fault
  | .ok (a, rest) => next a rest

instance : Monad Reader where
  pure := yield
  bind := andThen

/-- Whether at least `count` bytes are left, none of which is taken. -/
def holds (count : Nat) : Reader Bool := fun input =>
  .ok (decide ((input.take count).length = count), input)

/-- One byte. -/
def byte : Reader UInt8
  | [] => .error (.unexpectedEnd 1)
  | b :: rest => .ok (b, rest)

/-- A run of `count` bytes that is one item: if it is cut off, all that is missing is
reported. -/
def block (count : Nat) : Reader Bytes := fun input =>
  let taken := input.take count
  if taken.length = count then .ok (taken, input.drop count)
  else .error (.unexpectedEnd (count - taken.length))

/-- A run of `count` bytes that are items of their own: if it is cut off, the next one is
missing. -/
def items (count : Nat) : Reader Bytes := fun input =>
  let taken := input.take count
  if taken.length = count then .ok (taken, input.drop count)
  else .error (.unexpectedEnd 1)

/-- `count` further values, behind those that were read before.  The last one comes first in
`before`. -/
def timesAfter {α : Type} (read : Reader α) :
    (count : Nat) → (before : List α) → Reader (List α)
  | 0, before, input => .ok (before.reverse, input)
  | count + 1, before, input =>
    match read input with
    | .error fault => .error fault
    | .ok (a, rest) => timesAfter read count (a :: before) rest

/-- `count` values, one after another. -/
def times {α : Type} (read : Reader α) (count : Nat) : Reader (List α) := timesAfter read count []

theorem length_take_eq_iff (count : Nat) (input : Bytes) :
    (input.take count).length = count ↔ count ≤ input.length := by
  rw [List.length_take]
  omega

theorem block_eq (count : Nat) (input : Bytes) :
    block count input =
      if count ≤ input.length then .ok (input.take count, input.drop count)
      else .error (.unexpectedEnd (count - input.length)) := by
  simp only [block, length_take_eq_iff]
  split
  · rfl
  · rw [List.length_take, Nat.min_eq_right (by omega)]

theorem items_eq (count : Nat) (input : Bytes) :
    items count input =
      if count ≤ input.length then .ok (input.take count, input.drop count)
      else .error (.unexpectedEnd 1) := by
  simp only [items, length_take_eq_iff]

theorem timesAfter_eq {α : Type} (read : Reader α) (count : Nat) (before : List α)
    (input : Bytes) :
    timesAfter read count before input =
      match times read count input with
      | .error fault => .error fault
      | .ok (as, rest) => .ok (before.reverse ++ as, rest) := by
  rw [times]
  induction count generalizing before input with
  | zero => simp [timesAfter]
  | succ count ih =>
    simp only [timesAfter]
    cases read input with
    | error fault => rfl
    | ok result =>
      obtain ⟨a, rest⟩ := result
      simp only [ih (a :: before), ih [a]]
      cases timesAfter read count [] rest with
      | error fault => rfl
      | ok result => simp

/-- Reading one value more is reading it and then the others. -/
theorem times_succ {α : Type} (read : Reader α) (count : Nat) :
    times read (count + 1)
      = read.andThen fun a => (times read count).andThen fun as => yield (a :: as) := by
  funext input
  rw [times, timesAfter, andThen]
  cases read input with
  | error fault => rfl
  | ok result =>
    obtain ⟨a, rest⟩ := result
    simp only [timesAfter_eq read count [a], andThen]
    cases times read count rest with
    | error fault => rfl
    | ok result => rfl

end Reader

open Reader

/-- The number in the next `width` bytes. -/
def readWide (width : Nat) : Reader Nat := do
  let bytes ← block width
  return ofLittleEndian bytes

/-- A number of the given kind in any form that is not too wide for it. -/
def readNat (kind : IntKind) : Reader Nat := do
  let hasRoom ← holds longestForm
  let marker ← byte
  if marker < 251 then return marker.toNat
  else if marker = 251 then readWide 2
  else if marker = 252 then readWide 4
  else if marker = 253 then
    if kind.isLong then readWide 8
    else refuse (.wideInteger (kind.expectation hasRoom) "U64")
  else if marker = 254 then
    refuse (.wideInteger (kind.expectation hasRoom) kind.widest)
  else refuse (.wideInteger (kind.expectation hasRoom) "Reserved")

def readWord : Reader UInt32 := do
  let n ← readNat .word
  return .ofNat n

def readLong : Reader UInt64 := do
  let n ← readNat .long
  return .ofNat n

def readTime : Reader UnixTime := do
  let n ← readNat .signedLong
  return unzigzag n

def readBool : Reader Bool := do
  let b ← byte
  if b = 0 then return false
  else if b = 1 then return true
  else refuse (.invalidBool b)

def readBytes : Reader Bytes := do
  let count ← readNat .count
  items count

def readText : Reader String := do
  let count ← readNat .long
  let bytes ← block count
  match Text.ofUtf8? bytes with
  | some s => return s
  | none =>
    let fault := Text.utf8Fault bytes
    refuse (.invalidText fault.validUpTo fault.wrong)

def readOption {α : Type} (read : Reader α) : Reader (Option α) := do
  let b ← byte
  if b = 0 then return none
  else if b = 1 then
    let a ← read
    return some a
  else refuse (.invalidOption b)

def readList {α : Type} (read : Reader α) : Reader (List α) := do
  let count ← readNat .count
  times read count

def readVersion : Reader FileVersion := do
  let checksum ← readWord
  let mtime ← readTime
  return ⟨checksum, mtime⟩

def readRecord : Reader FileRecord := do
  let name ← readText
  let size ← readLong
  let checksum ← readWord
  let mtime ← readTime
  let ctime ← readTime
  return ⟨name, size, checksum, mtime, ctime⟩

def readEntry : Reader ListEntry := do
  let name ← readText
  let mtime ← readTime
  return ⟨name, mtime⟩

def readHeader : Reader StoreHeader := do
  let name ← readText
  let size ← readLong
  let client ← readText
  let checksum ← readWord
  let mtime ← readTime
  return ⟨name, size, client, checksum, mtime⟩

def readRequest : Reader Request := do
  let index ← readNat .word
  match index with
  | 0 =>
    let name ← readText
    let client ← readText
    return .requestLock name client
  | 1 =>
    let header ← readHeader
    return .store header
  | 2 =>
    let name ← readText
    let mine ← readOption readVersion
    return .fetch name mine
  | 3 =>
    let name ← readText
    let client ← readText
    return .delete name client
  | 4 => return .list
  | 5 =>
    let name ← readText
    return .stat name
  | 6 =>
    let name ← readText
    let client ← readText
    let sum ← readWord
    return .checksum name client sum
  | 7 =>
    let name ← readText
    let mtime ← readTime
    return .compareMtime name mtime
  | 8 =>
    let maxWait ← readLong
    return .changeNotification maxWait
  | index => refuse (.unknownVariant index 9)

def readReply : Reader Reply := do
  let index ← readNat .word
  match index with
  | 0 => return .empty
  | 1 =>
    let name ← readText
    return .stored name
  | 2 =>
    let bytes ← readLong
    return .fetched bytes
  | 3 =>
    let entries ← readList readEntry
    return .list entries
  | 4 =>
    let record ← readRecord
    return .stat record
  | 5 =>
    let sum ← readWord
    return .checksum sum
  | 6 =>
    let same ← readBool
    return .sameTimestamp same
  | 7 =>
    let records ← readList readRecord
    return .manifest records
  | index => refuse (.unknownVariant index 8)

def readCode : Reader StatusCode := do
  let index ← readNat .word
  match index with
  | 0 => return .ok
  | 1 => return .notFound
  | 2 => return .alreadyExists
  | 3 => return .cancelled
  | 4 => return .resourceExhausted
  | 5 => return .deadlineExceeded
  | 6 => return .internal
  | index => refuse (.unknownVariant index 7)

def readStatus : Reader Status := do
  let code ← readCode
  let message ← readText
  return ⟨code, message⟩

def readChunk : Reader FetchChunk := do
  let fileSize ← readLong
  let copyNeeded ← readBool
  let content ← readBytes
  return ⟨fileSize, copyNeeded, content⟩

def readClientFrame : Reader ClientFrame := do
  let index ← readNat .word
  match index with
  | 0 =>
    let deadline ← readLong
    let request ← readRequest
    return .call deadline request
  | 1 =>
    let content ← readBytes
    return .chunk content
  | 2 => return .endOfStream
  | index => refuse (.unknownVariant index 3)

def readServerFrame : Reader ServerFrame := do
  let index ← readNat .word
  match index with
  | 0 =>
    let chunk ← readChunk
    return .fetch chunk
  | 1 =>
    let side ← readNat .word
    match side with
    | 0 =>
      let reply ← readReply
      return .reply reply
    | 1 =>
      let status ← readStatus
      return .refusal status
    | side => refuse (.unknownResult side)
  | index => refuse (.unknownVariant index 2)

end MountSync.Frame

namespace MountSync

open MountSync.Frame

/-- The frame at the front of the input. -/
def ClientFrame.decode (input : Bytes) : Except DecodeFault ClientFrame :=
  (readClientFrame input).map Prod.fst

/-- The frame at the front of the input. -/
def ServerFrame.decode (input : Bytes) : Except DecodeFault ServerFrame :=
  (readServerFrame input).map Prod.fst

end MountSync
