/-
The checksum that decides whether two copies of a file are the same.

It is the 32-bit cyclic redundancy check of IEEE 802.3: reflected, all ones at the
start, inverted at the end.  Content arrives in pieces on every path that computes
it, so the running register is a value of its own, and the law that matters is that
feeding pieces one after another is feeding their concatenation.
-/

namespace MountSync

/-- File content and frame payloads. -/
abbrev Bytes := List UInt8

/-- The register of a checksum that is still being computed. -/
structure Crc where
  register : UInt32
  deriving DecidableEq, Repr, Inhabited

namespace Crc

/-- The generator polynomial, lowest power in the highest bit. -/
def polynomial : UInt32 := 0xEDB88320

/-- Moves the register down by one bit and takes the polynomial where a one falls out. -/
def shift (r : UInt32) : UInt32 :=
  if r &&& 1 == 1 then (r >>> 1) ^^^ polynomial else r >>> 1

/-- What eight shifts leave of an octet that was mixed into the register. -/
def absorbByte (r : UInt32) (b : UInt8) : UInt32 :=
  shift (shift (shift (shift (shift (shift (shift (shift (r ^^^ b.toUInt32))))))))

/-- Nothing read yet: all ones. -/
def fresh : Crc := ⟨0xFFFFFFFF⟩

/-- Feeds a piece of content. -/
def update (c : Crc) (piece : Bytes) : Crc := ⟨piece.foldl absorbByte c.register⟩

/-- The checksum of everything fed so far. -/
def finish (c : Crc) : UInt32 := c.register ^^^ 0xFFFFFFFF

@[simp] theorem update_nil (c : Crc) : c.update [] = c := rfl

theorem update_append (c : Crc) (p q : Bytes) : c.update (p ++ q) = (c.update p).update q := by
  simp [update, List.foldl_append]

end Crc

/-- The checksum of a whole content. -/
def checksum (content : Bytes) : UInt32 := (Crc.fresh.update content).finish

/-- The checksum of a content that is read piece by piece. -/
def checksumOfPieces (pieces : List Bytes) : UInt32 := (pieces.foldl Crc.update Crc.fresh).finish

/-- A content cut into pieces of `size` bytes, the last one possibly shorter.  A size of
zero cuts nothing off and leaves the content in one piece. -/
def piecesOf (size : Nat) (content : Bytes) : List Bytes :=
  if size = 0 ∨ (content.drop size).isEmpty then [content]
  else content.take size :: piecesOf size (content.drop size)
  termination_by content.length
  decreasing_by
    rename_i h
    simp only [List.isEmpty_iff, List.drop_eq_nil_iff, not_or] at h
    simp only [List.length_drop]
    omega

/-- Feeds a content in pieces of `size` bytes, none of which is kept. -/
def Crc.updateBy (size : Nat) (c : Crc) (content : Bytes) : Crc :=
  if size = 0 ∨ (content.drop size).isEmpty then c.update content
  else updateBy size (c.update (content.take size)) (content.drop size)
  termination_by content.length
  decreasing_by
    rename_i h
    simp only [List.isEmpty_iff, List.drop_eq_nil_iff, not_or] at h
    simp only [List.length_drop]
    omega

theorem Crc.updateBy_eq_foldl (size : Nat) (c : Crc) (content : Bytes) :
    c.updateBy size content = (piecesOf size content).foldl Crc.update c := by
  fun_induction Crc.updateBy size c content with
  | case1 c content h => rw [piecesOf, if_pos h, List.foldl_cons, List.foldl_nil]
  | case2 c content h ih => rw [ih, piecesOf.eq_1 size content, if_neg h, List.foldl_cons]

/-- Files are read through a buffer of this many bytes. -/
def readBufferSize : Nat := 64 * 1024

/-- The checksum of a file as it is computed from disk, one buffer at a time. -/
def fileChecksum (content : Bytes) : UInt32 := (Crc.fresh.updateBy readBufferSize content).finish

theorem fileChecksum_eq (content : Bytes) :
    fileChecksum content = checksumOfPieces (piecesOf readBufferSize content) := by
  rw [fileChecksum, Crc.updateBy_eq_foldl, checksumOfPieces]

end MountSync
