/-
Where bytes cease to be UTF-8.

A refusal of text names the number of bytes in front that are well formed and, unless the
bytes merely stop in the middle of a character, how many bytes are wrong from there on.
Where such bytes are shown all the same, a sign takes the place of what is wrong.
-/
import MountSync.Checksum

namespace MountSync.Text

/-- Where well-formed text ends. -/
structure Utf8Fault where
  validUpTo : Nat
  /-- Absent if more bytes could still complete the last character. -/
  wrong : Option Nat
  deriving DecidableEq, Repr, Inhabited

/-- How a character goes on after its first byte: how many bytes follow, and the bounds
within which the first of them has to lie.  The bounds shut out overlong forms, surrogates
and numbers past the last code point. -/
def continuation (first : UInt8) : Option (Nat × UInt8 × UInt8) :=
  if first < 0x80 then some (0, 0, 0)
  else if first < 0xC2 then none
  else if first < 0xE0 then some (1, 0x80, 0xBF)
  else if first = 0xE0 then some (2, 0xA0, 0xBF)
  else if first = 0xED then some (2, 0x80, 0x9F)
  else if first < 0xF0 then some (2, 0x80, 0xBF)
  else if first = 0xF0 then some (3, 0x90, 0xBF)
  else if first < 0xF4 then some (3, 0x80, 0xBF)
  else if first = 0xF4 then some (3, 0x80, 0x8F)
  else none

/-- Reads `count` further bytes of a character, of which `seen` have been read.  The next one
lies within the bounds given, the ones after it within the general bounds.  Answers what
follows the character, or how many bytes of it are wrong. -/
def readTail (seen : Nat) : Nat → UInt8 → UInt8 → Bytes → Except (Option Nat) Bytes
  | 0, _, _, rest => .ok rest
  | _ + 1, _, _, [] => .error none
  | count + 1, lo, hi, b :: rest =>
    if lo ≤ b ∧ b ≤ hi then readTail (seen + 1) count 0x80 0xBF rest else .error (some seen)

/-- Looks for the first fault from position `at` on.  Each character takes at least one byte,
so `fuel` equal to the number of bytes left is enough. -/
def findFault (position : Nat) : Nat → Bytes → Option Utf8Fault
  | 0, _ => none
  | _ + 1, [] => none
  | fuel + 1, first :: rest =>
    match continuation first with
    | none => some ⟨position, some 1⟩
    | some (count, lo, hi) =>
      match readTail 1 count lo hi rest with
      | .error wrong => some ⟨position, wrong⟩
      | .ok rest => findFault (position + 1 + count) fuel rest

/-- The first fault of bytes that are not UTF-8. -/
def utf8Fault (bytes : Bytes) : Utf8Fault :=
  (findFault 0 bytes.length bytes).getD ⟨bytes.length, none⟩

/-- The text that bytes stand for, if they are UTF-8. -/
def ofUtf8? (bytes : Bytes) : Option String := String.fromUTF8? ⟨bytes.toArray⟩

/-- Text in which each stretch of bytes that is not UTF-8 is one replacement character.  A
stretch has at least one byte, so `fuel` equal to the number of bytes is enough. -/
def lossyOnto : Nat → Bytes → List Char
  | 0, _ => []
  | fuel + 1, bytes =>
    match findFault 0 bytes.length bytes with
    | none => ((ofUtf8? bytes).getD "").toList
    | some fault =>
      let good := ((ofUtf8? (bytes.take fault.validUpTo)).getD "").toList
      let rest := bytes.drop (fault.validUpTo + fault.wrong.getD bytes.length)
      good ++ '\uFFFD' :: lossyOnto fuel rest

/-- The text of bytes that may not be UTF-8, as people get to see it. -/
def lossy (bytes : Bytes) : String := String.ofList (lossyOnto (bytes.length + 1) bytes)

end MountSync.Text
