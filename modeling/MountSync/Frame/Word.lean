/-
Integers of the frame format.

A small number is one byte.  A larger one is a marker, which says how wide the number is,
and then the number with its low byte first.  A reader knows how wide a number it expects
and refuses a wider one on sight of the marker; it accepts a narrower form than needed, and
a wider form than needed as long as the width is expected.
-/
import MountSync.Checksum

namespace MountSync.Frame

/-- The integers that occur in frames. -/
inductive IntKind
  /-- Checksums and variant numbers. -/
  | word
  /-- Sizes, durations and the lengths of strings. -/
  | long
  /-- Times. -/
  | signedLong
  /-- Lengths of sequences. -/
  | count
  deriving DecidableEq, Repr, Inhabited

/-- Whether a number of this kind may take eight bytes. -/
def IntKind.isLong : IntKind → Bool
  | .word => false
  | _ => true

/-- The bytes of the longest form of a number. -/
def longestForm : Nat := 9

/-- What a refused marker says was expected.  If the input has room for the longest form of a
number, the refusal of a long one names the 32-bit kind. -/
def IntKind.expectation (hasRoom : Bool) : IntKind → String
  | .word => "U32"
  | .long => if hasRoom then "U32" else "U64"
  | .signedLong => if hasRoom then "I32" else "I64"
  | .count => "Usize"

/-- What a marker for sixteen bytes announces. -/
def IntKind.widest : IntKind → String
  | .signedLong => "I128"
  | _ => "U128"

/-- Why bytes are not a frame. -/
inductive DecodeFault
  /-- The item that was being read lacks this many bytes. -/
  | unexpectedEnd (missing : Nat)
  /-- The marker announces an integer that is too wide for what is expected. -/
  | wideInteger (expected found : String)
  | unknownVariant (index count : Nat)
  /-- Neither of the two variants of a result. -/
  | unknownResult (index : Nat)
  | invalidBool (byte : UInt8)
  | invalidOption (byte : UInt8)
  /-- `wrong` is how many bytes the offending sequence has, if it is not just cut off. -/
  | invalidText (validUpTo : Nat) (wrong : Option Nat)
  deriving DecidableEq, Repr, Inhabited

def DecodeFault.message : DecodeFault → String
  | .unexpectedEnd missing =>
    "UnexpectedEnd \x7b additional: " ++ toString missing ++ " \x7d"
  | .wideInteger expected found =>
    "InvalidIntegerType \x7b expected: " ++ expected ++ ", found: " ++ found ++ " \x7d"
  | .unknownVariant index count =>
    "OtherString(\"invalid value: integer `" ++ toString index
      ++ "`, expected variant index 0 <= i < " ++ toString count ++ "\")"
  | .unknownResult index =>
    "OtherString(\"invalid value: integer `" ++ toString index
      ++ "`, expected `Ok` or `Err`\")"
  | .invalidBool byte => "InvalidBooleanValue(" ++ toString byte.toNat ++ ")"
  | .invalidOption byte =>
    "UnexpectedVariant \x7b type_name: \"Option<T>\", allowed: Range \x7b min: 0, max: 1 \x7d, found: "
      ++ toString byte.toNat ++ " \x7d"
  | .invalidText validUpTo wrong =>
    let length := match wrong with
      | none => "None"
      | some n => "Some(" ++ toString n ++ ")"
    "Utf8 \x7b inner: Utf8Error \x7b valid_up_to: " ++ toString validUpTo ++ ", error_len: "
      ++ length ++ " \x7d \x7d"

/-! ### The two forms of a number -/

/-- The low `width` bytes of `n`, lowest first. -/
def littleEndian : Nat → Nat → Bytes
  | 0, _ => []
  | width + 1, n => UInt8.ofNat (n % 256) :: littleEndian width (n / 256)

/-- The number whose bytes these are, lowest first. -/
def ofLittleEndian (bytes : Bytes) : Nat := bytes.foldr (fun b n => b.toNat + 256 * n) 0

/-- The shortest form of a number below 2⁶⁴. -/
def writeNat (n : Nat) : Bytes :=
  if n < 251 then [UInt8.ofNat n]
  else if n < 65536 then 251 :: littleEndian 2 n
  else if n < 4294967296 then 252 :: littleEndian 4 n
  else 253 :: littleEndian 8 n

/-- Folds the sign into the lowest bit, so that numbers near zero stay short. -/
def zigzag (t : Int64) : Nat :=
  if 0 ≤ t.toInt then (2 * t.toInt).toNat else (-2 * t.toInt - 1).toNat

/-- Unfolds the sign again. -/
def unzigzag (n : Nat) : Int64 :=
  if n % 2 = 0 then Int64.ofInt (n / 2 : Nat) else Int64.ofInt (-((n / 2 : Nat) : Int) - 1)

end MountSync.Frame
