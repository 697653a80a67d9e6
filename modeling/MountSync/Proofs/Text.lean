/-
Names in the order of their bytes.

Two texts are compared by their characters, from the front, and a smaller character has smaller bytes:
either its first byte is smaller, or both characters have the same number of bytes and these are the
digits of their numbers.  So where the bytes of two texts first differ the characters do, and in the
same way.
-/
import MountSync.Frame.Writer
import Mathlib.Tactic.SplitIfs

namespace MountSync

/-- What begins with the bytes of a smaller character comes first, whatever follows. -/
theorem utf8EncodeChar_append_lt {c d : Char} (less : c < d) (s t : Bytes) :
    String.utf8EncodeChar c ++ s < String.utf8EncodeChar d ++ t := by
  have less : c.val.toNat < d.val.toNat := less
  have bound : d.val.toNat < 1114112 := by
    rcases d.valid with small | ⟨-, small⟩
    · exact Nat.lt_trans small (by decide)
    · exact small
  have byte (k : Nat) : (k % 64 + 128) % 2 ^ 8 = k % 64 + 128 := by omega
  have first (k : Nat) : (k % 8 + 240) % 2 ^ 8 = k % 8 + 240 := by omega
  simp only [String.utf8EncodeChar]
  generalize c.val.toNat = m at less
  generalize d.val.toNat = n at less bound
  -- One case for each pair of numbers of bytes.
  split_ifs
  all_goals
    simp only [List.cons_append, List.nil_append, List.cons_lt_cons_iff, UInt8.lt_iff_toNat_lt,
      ← UInt8.toNat_inj, UInt8.toNat_ofNat', byte, first]
    try omega
  -- What is left are two characters of four bytes.
  by_cases high : m / 262144 < n / 262144
  · omega
  by_cases middle : m / 4096 < n / 4096
  · omega
  by_cases low : m / 64 < n / 64 <;> omega

theorem flatMap_utf8EncodeChar_lt {a b : List Char} (less : a < b) :
    a.flatMap String.utf8EncodeChar < b.flatMap String.utf8EncodeChar := by
  induction a generalizing b with
  | nil =>
    cases b with
    | nil => exact absurd less (List.lt_irrefl [])
    | cons d rest =>
      obtain ⟨first, bytes, encoded⟩ := List.exists_cons_of_ne_nil
        (String.utf8EncodeChar_ne_nil (c := d))
      rw [List.flatMap_cons, encoded]
      exact List.nil_lt_cons ..
  | cons c a ih =>
    cases b with
    | nil => exact absurd less (List.not_lt_nil _)
    | cons d b =>
      rw [List.flatMap_cons, List.flatMap_cons]
      rcases List.cons_lt_cons_iff.1 less with smaller | ⟨rfl, later⟩
      · exact utf8EncodeChar_append_lt smaller _ _
      · exact List.append_left_lt (ih later)

namespace Frame

theorem textBytes_eq (s : String) : textBytes s = s.toList.flatMap String.utf8EncodeChar := by
  have bytes : s.toUTF8 = (s.toList.flatMap String.utf8EncodeChar).toByteArray := by
    conv => lhs; rw [← String.ofList_toList (s := s)]
    exact String.toByteArray_ofList
  rw [textBytes, bytes, List.data_toByteArray]

/-- The order of texts is that of their bytes. -/
theorem textBytes_lt {a b : String} (less : a < b) : textBytes a < textBytes b := by
  rw [textBytes_eq, textBytes_eq]
  exact flatMap_utf8EncodeChar_lt (String.lt_iff.1 less)

end Frame

end MountSync
