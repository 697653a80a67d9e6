/-
The order in which a directory gives its names.

A directory keeps its entries by a hash of their names and gives them in the order of that
hash, which is MD4 cut down to half of its steps.  Four words are changed in turn, in three
rounds for each block of the name; two of them are the hash.  A block has eight words of four
bytes, and what a name lacks to fill its last block is made up by its length.
-/
import MountSync.Checksum

namespace MountSync.NameHash

/-- The four words.  The first of them is the next to be changed. -/
structure State where
  a : UInt32
  b : UInt32
  c : UInt32
  d : UInt32
  deriving DecidableEq, Repr, Inhabited

/-- One way to go through the words of a block. -/
structure Round where
  /-- What the other three words contribute. -/
  mix : UInt32 → UInt32 → UInt32 → UInt32
  /-- Added to every word of the block. -/
  constant : UInt32
  /-- The order of the words of the block, and by how many bits each turns the sum. -/
  turns : List (Nat × UInt32)

def rounds : List Round :=
  [⟨fun x y z => z ^^^ (x &&& (y ^^^ z)), 0,
      [(0, 3), (1, 7), (2, 11), (3, 19), (4, 3), (5, 7), (6, 11), (7, 19)]⟩,
    ⟨fun x y z => (x &&& y) + ((x ^^^ y) &&& z), 0x5a827999,
      [(1, 3), (3, 5), (5, 9), (7, 13), (0, 3), (2, 5), (4, 9), (6, 13)]⟩,
    ⟨fun x y z => x ^^^ y ^^^ z, 0x6ed9eba1,
      [(3, 3), (7, 9), (2, 11), (6, 15), (1, 3), (5, 9), (0, 11), (4, 15)]⟩]

namespace State

/-- The words before anything is mixed in. -/
def start : State := ⟨0x67452301, 0xefcdab89, 0x98badcfe, 0x10325476⟩

/-- Turns a word to the left. -/
def rotate (word bits : UInt32) : UInt32 := (word <<< bits) ||| (word >>> (32 - bits))

/-- Changes the first word, and makes the last one the first. -/
def turn (r : Round) (s : State) (word bits : UInt32) : State :=
  ⟨s.d, rotate (s.a + r.mix s.b s.c s.d + word + r.constant) bits, s.b, s.c⟩

/-- Goes through a block once. -/
def play (block : List UInt32) (s : State) (r : Round) : State :=
  r.turns.foldl (fun s t => s.turn r (block.getD t.1 0) t.2) s

/-- Mixes a block in. -/
def absorb (s : State) (block : List UInt32) : State :=
  let t := rounds.foldl (play block) s
  ⟨s.a + t.a, s.b + t.b, s.c + t.c, s.d + t.d⟩

end State

/-- A byte as a word; from 128 on it counts as negative. -/
def signed (b : UInt8) : UInt32 := if b < 128 then b.toUInt32 else b.toUInt32 - 256

/-- Up to four bytes as one word, the first byte highest, in front of what fills it up. -/
def wordOf (filler : UInt32) (bytes : Bytes) : UInt32 :=
  bytes.foldl (fun word b => (word <<< 8) + signed b) filler

/-- The first block of what is left of a name. -/
def blockOf (name : Bytes) : List UInt32 :=
  let filler := UInt32.ofNat name.length * 0x01010101
  (List.range 8).map fun i => wordOf filler ((name.drop (4 * i)).take 4)

/-- The bytes in a block. -/
def blockSize : Nat := 32

/-- Mixes in as many blocks of a name as are told. -/
def absorbAll : (blocks : Nat) → State → Bytes → State
  | 0, s, _ => s
  | blocks + 1, s, name => absorbAll blocks (s.absorb (blockOf name)) (name.drop blockSize)

end MountSync.NameHash

namespace MountSync

/-- The hash by which a directory keeps a name: the second word, of which the lowest bit does
not count, in front of the third. -/
def nameHash (name : Bytes) : Nat :=
  let blocks := (name.length + NameHash.blockSize - 1) / NameHash.blockSize
  let s := NameHash.absorbAll blocks NameHash.State.start name
  s.b.toNat / 2 * 4294967296 + s.c.toNat

end MountSync
