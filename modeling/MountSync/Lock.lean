/-
Who may change which file.

A file has a row once somebody has asked for its lock.  The row names the owner while the
lock is held and stays, without an owner, when it is given back; it goes when the file goes.
Nobody waits for a lock: a caller is told at once whether it has it.  Each operation is one
step, so the state of a file's row is decided by the last operation on it that succeeded.
-/
import MountSync.Failure
import MountSync.Table

namespace MountSync

/-- How often locks were granted, refused and given up, and how many rows there are.

Numbers that are counted have no bound here.  Counters in words of 64 bits show them modulo 2^64, and
so are the same until that many calls were made. -/
structure LockStats where
  granted : Nat
  denied : Nat
  released : Nat
  deleted : Nat
  entries : Nat
  deriving DecidableEq, Repr, Inhabited

/-- The locks on the files of a mount, and how often each outcome was counted, without a bound (see
`LockStats`). -/
structure LockTable where
  /-- A row without an owner is a file that was locked and is not now. -/
  rows : Table String (Option ClientId)
  granted : Nat
  denied : Nat
  released : Nat
  deleted : Nat
  deriving Inhabited

namespace LockTable

def empty : LockTable := ⟨.empty, 0, 0, 0, 0⟩

/-- The client that holds the lock on a file. -/
def ownerOf (t : LockTable) (file : String) : Option ClientId := (t.rows.get? file).join

def isOwner (t : LockTable) (file : String) (client : ClientId) : Bool :=
  t.ownerOf file = some client

/-- Whether there is a row for a file, held or not. -/
def contains (t : LockTable) (file : String) : Bool := t.rows.contains file

def size (t : LockTable) : Nat := t.rows.size

def stats (t : LockTable) : LockStats :=
  ⟨t.granted, t.denied, t.released, t.deleted, t.size⟩

/-- Asks for the lock on a file.  A client that holds it already is granted it again; a file
without a row gets one. -/
def acquire (t : LockTable) (file : String) (client : ClientId) : LockTable × Bool :=
  match t.ownerOf file with
  | none =>
    ({ t with rows := t.rows.insert file (some client), granted := t.granted + 1 }, true)
  | some owner =>
    if owner = client then ({ t with granted := t.granted + 1 }, true)
    else ({ t with denied := t.denied + 1 }, false)

/-- Gives the lock back and keeps the row.  Only the owner can. -/
def release (t : LockTable) (file : String) (client : ClientId) : LockTable × Bool :=
  if t.isOwner file client then
    ({ t with rows := t.rows.insert file none, released := t.released + 1 }, true)
  else (t, false)

/-- Gives the lock up together with its row.  Only the owner can. -/
def delete (t : LockTable) (file : String) (client : ClientId) : LockTable × Bool :=
  if t.isOwner file client then
    ({ t with rows := t.rows.erase file, deleted := t.deleted + 1 }, true)
  else (t, false)

/-- Gives the lock back if the file is there, and up if it is gone. -/
def releaseOrDelete (t : LockTable) (file : String) (client : ClientId) (present : Bool) :
    LockTable × Bool :=
  if present then t.release file client else t.delete file client

/-! ### What the operations do to the rows

A refusal changes no row, and no operation changes the row of another file. -/

theorem rows_acquire_of_refused {t : LockTable} {file : String} {client : ClientId}
    (h : (t.acquire file client).2 = false) : (t.acquire file client).1.rows = t.rows := by
  unfold acquire at h ⊢
  split at h
  · simp at h
  · split at h
    · simp at h
    · simp_all

theorem ownerOf_acquire_of_granted {t : LockTable} {file : String} {client : ClientId}
    (h : (t.acquire file client).2 = true) :
    (t.acquire file client).1.ownerOf file = some client := by
  unfold acquire at h ⊢
  split at h
  · simp [ownerOf]
  · rename_i owner ho
    split at h
    · simp_all [ownerOf]
    · simp at h

theorem release_of_not_owner {t : LockTable} {file : String} {client : ClientId}
    (h : t.isOwner file client = false) : t.release file client = (t, false) := by
  simp [release, h]

theorem delete_of_not_owner {t : LockTable} {file : String} {client : ClientId}
    (h : t.isOwner file client = false) : t.delete file client = (t, false) := by
  simp [delete, h]

theorem get?_acquire_ne (t : LockTable) {file other : String} (h : other ≠ file)
    (client : ClientId) : (t.acquire file client).1.rows.get? other = t.rows.get? other := by
  unfold acquire
  split
  · exact Table.get?_insert_ne _ h _
  · split <;> rfl

theorem get?_release_ne (t : LockTable) {file other : String} (h : other ≠ file)
    (client : ClientId) : (t.release file client).1.rows.get? other = t.rows.get? other := by
  unfold release
  split
  · exact Table.get?_insert_ne _ h _
  · rfl

theorem get?_delete_ne (t : LockTable) {file other : String} (h : other ≠ file)
    (client : ClientId) : (t.delete file client).1.rows.get? other = t.rows.get? other := by
  unfold delete
  split
  · exact Table.get?_erase_ne _ h
  · rfl

end LockTable

end MountSync
