/-
Cutting a content into pieces and summing it up.

The pieces of a content are the content, however it is cut, and feeding them one after another is
feeding the whole.  So it makes no difference to a checksum how somebody reads a file or sends it.
-/
import MountSync.Checksum

namespace MountSync

/-- The pieces put together are the content. -/
theorem flatten_piecesOf (size : Nat) (content : Bytes) :
    (piecesOf size content).flatten = content := by
  induction content using piecesOf.induct size with
  | case1 content whole => rw [piecesOf, if_pos whole, List.flatten_singleton]
  | case2 content cut ih =>
      rw [piecesOf, if_neg cut, List.flatten_cons, ih, List.take_append_drop]

/-- No piece is longer than it may be. -/
theorem length_le_of_mem_piecesOf {size : Nat} (positive : 0 < size) {content piece : Bytes}
    (h : piece ∈ piecesOf size content) : piece.length ≤ size := by
  induction content using piecesOf.induct size with
  | case1 content whole =>
      rw [piecesOf, if_pos whole, List.mem_singleton] at h
      rcases whole with zero | short
      · omega
      · rw [List.isEmpty_iff, List.drop_eq_nil_iff] at short
        rw [h]
        exact short
  | case2 content cut ih =>
      rw [piecesOf, if_neg cut, List.mem_cons] at h
      rcases h with rfl | h
      · exact List.length_take_le size content
      · exact ih h

/-- Feeding pieces is feeding what they are together. -/
theorem Crc.foldl_update (c : Crc) (pieces : List Bytes) :
    pieces.foldl Crc.update c = c.update pieces.flatten := by
  induction pieces generalizing c with
  | nil => rfl
  | cons piece rest ih => rw [List.foldl_cons, ih, List.flatten_cons, Crc.update_append]

/-- The checksum of a file is that of its content. -/
theorem fileChecksum_eq_checksum (content : Bytes) : fileChecksum content = checksum content := by
  rw [fileChecksum_eq, checksumOfPieces, Crc.foldl_update, flatten_piecesOf, checksum]

end MountSync
