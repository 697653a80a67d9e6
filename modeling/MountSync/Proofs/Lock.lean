/-
Who owns a file after an operation on the lock table.

Everything that the calls rely on is a statement about owners, so each operation is described
by the owner that it leaves to its file, and by leaving the owners of all other files alone.
-/
import MountSync.Lock

namespace MountSync.LockTable

variable {t : LockTable} {file other : String} {client : ClientId}

/-- The table is asked for an owner in two ways, and statements use the second one. -/
theorem isOwner_iff : t.isOwner file client = true ↔ t.ownerOf file = some client := by
  simp [isOwner]

/-! ### The file of the operation

One equation for each operation, with the owner before it on the right: who is refused finds the
owner that was there.
-/

/-- Only a file that nobody owns changes hands. -/
theorem ownerOf_acquire (t : LockTable) (file : String) (client : ClientId) :
    (t.acquire file client).1.ownerOf file = some ((t.ownerOf file).getD client) := by
  unfold acquire
  cases h : t.ownerOf file with
  | none => simp [ownerOf]
  | some owner =>
      -- Granted again or refused, the row stays what it was.
      by_cases ho : owner = client
      · simpa [ho, ownerOf] using h
      · simpa [ho, ownerOf] using h

/-- A lock is given back by its owner; nobody else moves the row. -/
theorem ownerOf_release (t : LockTable) (file : String) (client : ClientId) :
    (t.release file client).1.ownerOf file
      = if t.ownerOf file = some client then none else t.ownerOf file := by
  by_cases h : t.ownerOf file = some client
  · rw [release, if_pos (isOwner_iff.2 h), if_pos h]
    simp [ownerOf]
  · rw [release_of_not_owner (by simpa [isOwner] using h), if_neg h]

/-- So is it given up, and to owners the two make no difference. -/
theorem ownerOf_delete (t : LockTable) (file : String) (client : ClientId) :
    (t.delete file client).1.ownerOf file
      = if t.ownerOf file = some client then none else t.ownerOf file := by
  by_cases h : t.ownerOf file = some client
  · rw [delete, if_pos (isOwner_iff.2 h), if_pos h]
    simp [ownerOf]
  · rw [delete_of_not_owner (by simpa [isOwner] using h), if_neg h]

/-- Nobody who has let go of a lock owns it. -/
theorem not_owner_release (t : LockTable) (file : String) (client : ClientId) :
    (t.release file client).1.ownerOf file ≠ some client := by
  rw [ownerOf_release]
  split
  · exact nofun
  · assumption

theorem not_owner_delete (t : LockTable) (file : String) (client : ClientId) :
    (t.delete file client).1.ownerOf file ≠ some client := by
  rw [ownerOf_delete]
  split
  · exact nofun
  · assumption

/-! ### All other files

An operation reads and writes one row, and owners are read off rows.
-/

/-- One call is about one file. -/
theorem ownerOf_acquire_ne (h : other ≠ file) :
    (t.acquire file client).1.ownerOf other = t.ownerOf other := by
  unfold ownerOf
  rw [get?_acquire_ne t h]

theorem ownerOf_release_ne (h : other ≠ file) :
    (t.release file client).1.ownerOf other = t.ownerOf other := by
  unfold ownerOf
  rw [get?_release_ne t h]

theorem ownerOf_delete_ne (h : other ≠ file) :
    (t.delete file client).1.ownerOf other = t.ownerOf other := by
  unfold ownerOf
  rw [get?_delete_ne t h]

/-! ### Who is told that it succeeded

A call that has made sure of its lock, and has not been overlapped since, is told that it could let
go of it.  This is why such a call has no internal failure.
-/

/-- Letting go of a lock succeeds for the owner. -/
theorem release_of_owner (h : t.ownerOf file = some client) :
    (t.release file client).2 = true := by
  rw [release, if_pos (isOwner_iff.2 h)]

theorem delete_of_owner (h : t.ownerOf file = some client) :
    (t.delete file client).2 = true := by
  rw [delete, if_pos (isOwner_iff.2 h)]

end MountSync.LockTable
