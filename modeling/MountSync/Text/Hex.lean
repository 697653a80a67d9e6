/-
Hexadecimal text: of a code point, of a checksum, and of a string of bytes.
-/

namespace MountSync.Text

/-- The lower-case digit for a value below sixteen. -/
def hexDigit (n : Nat) : Char :=
  if n < 10 then Char.ofNat (48 + n) else Char.ofNat (87 + n)

/-- The digits of `n` in front of `rest`, most significant first and none for zero. -/
def hexDigitsOnto (fuel n : Nat) (rest : List Char) : List Char :=
  match fuel with
  | 0 => rest
  | fuel + 1 => if n = 0 then rest else hexDigitsOnto fuel (n / 16) (hexDigit (n % 16) :: rest)

/-- The shortest hexadecimal text of a number. -/
def hexShort (n : Nat) : String :=
  if n = 0 then "0" else String.ofList (hexDigitsOnto (n.log2 + 1) n [])

/-- The two digits of a byte. -/
def hexOfByte (b : UInt8) : List Char := [hexDigit (b.toNat / 16), hexDigit (b.toNat % 16)]

/-- All eight digits of a word. -/
def wordDigits (w : UInt32) : List Char :=
  let digit (unit : Nat) : Char := hexDigit (w.toNat / unit % 16)
  [digit 268435456, digit 16777216, digit 1048576, digit 65536, digit 4096, digit 256, digit 16,
    digit 1]

/-- A checksum as it is shown to people: a marker and all eight digits. -/
def hexOfWord (w : UInt32) : String := "0x" ++ String.ofList (wordDigits w)

end MountSync.Text
