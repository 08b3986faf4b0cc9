/-!
# AES-256

The block cipher under the gateway's keys: sixteen bytes in, sixteen bytes out, under a key of 32
bytes.  A block is a four by four matrix written column by column, so byte `i` stands in row
`i % 4` and column `i / 4`.  Only encryption is needed, since the counter mode built on it uses
the cipher as a source of key bytes in both directions.
-/

namespace CardGate.Aes

/-- A block of sixteen bytes. -/
abbrev Block := Vector UInt8 16

/-- A key of 32 bytes. -/
abbrev Key := Vector UInt8 32

/-! ## Bytes -/

/-- The substitution box: the inverse in the field of 256 elements, followed by an affine map. -/
def substitutionBox : Array UInt8 :=
  #[0x63, 0x7c, 0x77, 0x7b, 0xf2, 0x6b, 0x6f, 0xc5, 0x30, 0x01, 0x67, 0x2b, 0xfe, 0xd7, 0xab, 0x76,
     0xca, 0x82, 0xc9, 0x7d, 0xfa, 0x59, 0x47, 0xf0, 0xad, 0xd4, 0xa2, 0xaf, 0x9c, 0xa4, 0x72, 0xc0,
     0xb7, 0xfd, 0x93, 0x26, 0x36, 0x3f, 0xf7, 0xcc, 0x34, 0xa5, 0xe5, 0xf1, 0x71, 0xd8, 0x31, 0x15,
     0x04, 0xc7, 0x23, 0xc3, 0x18, 0x96, 0x05, 0x9a, 0x07, 0x12, 0x80, 0xe2, 0xeb, 0x27, 0xb2, 0x75,
     0x09, 0x83, 0x2c, 0x1a, 0x1b, 0x6e, 0x5a, 0xa0, 0x52, 0x3b, 0xd6, 0xb3, 0x29, 0xe3, 0x2f, 0x84,
     0x53, 0xd1, 0x00, 0xed, 0x20, 0xfc, 0xb1, 0x5b, 0x6a, 0xcb, 0xbe, 0x39, 0x4a, 0x4c, 0x58, 0xcf,
     0xd0, 0xef, 0xaa, 0xfb, 0x43, 0x4d, 0x33, 0x85, 0x45, 0xf9, 0x02, 0x7f, 0x50, 0x3c, 0x9f, 0xa8,
     0x51, 0xa3, 0x40, 0x8f, 0x92, 0x9d, 0x38, 0xf5, 0xbc, 0xb6, 0xda, 0x21, 0x10, 0xff, 0xf3, 0xd2,
     0xcd, 0x0c, 0x13, 0xec, 0x5f, 0x97, 0x44, 0x17, 0xc4, 0xa7, 0x7e, 0x3d, 0x64, 0x5d, 0x19, 0x73,
     0x60, 0x81, 0x4f, 0xdc, 0x22, 0x2a, 0x90, 0x88, 0x46, 0xee, 0xb8, 0x14, 0xde, 0x5e, 0x0b, 0xdb,
     0xe0, 0x32, 0x3a, 0x0a, 0x49, 0x06, 0x24, 0x5c, 0xc2, 0xd3, 0xac, 0x62, 0x91, 0x95, 0xe4, 0x79,
     0xe7, 0xc8, 0x37, 0x6d, 0x8d, 0xd5, 0x4e, 0xa9, 0x6c, 0x56, 0xf4, 0xea, 0x65, 0x7a, 0xae, 0x08,
     0xba, 0x78, 0x25, 0x2e, 0x1c, 0xa6, 0xb4, 0xc6, 0xe8, 0xdd, 0x74, 0x1f, 0x4b, 0xbd, 0x8b, 0x8a,
     0x70, 0x3e, 0xb5, 0x66, 0x48, 0x03, 0xf6, 0x0e, 0x61, 0x35, 0x57, 0xb9, 0x86, 0xc1, 0x1d, 0x9e,
     0xe1, 0xf8, 0x98, 0x11, 0x69, 0xd9, 0x8e, 0x94, 0x9b, 0x1e, 0x87, 0xe9, 0xce, 0x55, 0x28, 0xdf,
     0x8c, 0xa1, 0x89, 0x0d, 0xbf, 0xe6, 0x42, 0x68, 0x41, 0x99, 0x2d, 0x0f, 0xb0, 0x54, 0xbb, 0x16]

/-- The substitute of a byte. -/
def substitute (b : UInt8) : UInt8 :=
  substitutionBox.getD b.toNat 0

/-- Twice a byte in the field of 256 elements. -/
def twice (b : UInt8) : UInt8 :=
  if b < 0x80 then b <<< 1 else (b <<< 1) ^^^ 0x1b

/-! ## Rounds -/

/-- The byte-wise exclusive or of two blocks. -/
def addBlocks (a b : Block) : Block :=
  Vector.zipWith (· ^^^ ·) a b

/-- Byte `i` of a block, counted around its end. -/
def byteAt (block : Block) (i : Nat) : UInt8 :=
  block.get ⟨i % 16, Nat.mod_lt i (by decide)⟩

/-- Rotates row `r` of the matrix by `r` places. -/
def shiftRows (block : Block) : Block :=
  Vector.ofFn fun i => byteAt block (5 * i.val)

/-- Multiplies every column by the fixed circulant matrix of 2, 3, 1, 1. -/
def mixColumns (block : Block) : Block :=
  Vector.ofFn fun i =>
    let entry (k : Nat) : UInt8 := byteAt block (i.val / 4 * 4 + (i.val + k) % 4)
    twice (entry 0) ^^^ (twice (entry 1) ^^^ entry 1) ^^^ entry 2 ^^^ entry 3

/-- One round: substitution, rotation, mixing and the addition of a round key. -/
def round (block roundKey : Block) : Block :=
  addBlocks (mixColumns (shiftRows (block.map substitute))) roundKey

/-- The last round, which does not mix. -/
def lastRound (block roundKey : Block) : Block :=
  addBlocks (shiftRows (block.map substitute)) roundKey

/-! ## Round keys -/

/-- A row of four bytes. -/
abbrev Word := Vector UInt8 4

/-- The last column of a block. -/
def lastColumn (block : Block) : Word :=
  Vector.ofFn fun i => byteAt block (12 + i.val)

/-- The columns of `older`, each added to its left neighbour in the result.  The first column has
`carry` on its left. -/
def chainColumns (older : Block) (carry : Word) : Block :=
  Vector.ofFn fun i =>
    (List.range (i.val / 4 + 1)).foldl (fun acc column => acc ^^^ byteAt older (4 * column + i.val % 4))
      (carry.get ⟨i.val % 4, Nat.mod_lt _ (by decide)⟩)

/-- The carry into an even round key: the last column rotated and substituted, with a round
constant added to its first byte. -/
def rotatedCarry (newer : Block) (constant : UInt8) : Word :=
  Vector.ofFn fun i =>
    substitute (byteAt newer (12 + (i.val + 1) % 4)) ^^^ (if i.val = 0 then constant else 0)

/-- The round keys that follow the pair `older`, `newer`, two at a time for as many round
constants as are given. -/
def moreKeys (older newer : Block) : List UInt8 → List Block
  | [] => []
  | constant :: constants =>
    let even := chainColumns older (rotatedCarry newer constant)
    let odd := chainColumns newer ((lastColumn even).map substitute)
    even :: odd :: moreKeys even odd constants

/-- The fifteen round keys of a key, and one that is not used. -/
def roundKeys (key : Key) : List Block :=
  let half (k : Nat) (hk : k ≤ 1) : Block :=
    Vector.ofFn fun i => key.get ⟨16 * k + i.val, by omega⟩
  let first := half 0 (by decide)
  let second := half 1 (by decide)
  first :: second :: moreKeys first second [0x01, 0x02, 0x04, 0x08, 0x10, 0x20, 0x40]

/-- Runs the rounds that are left on a block. -/
def runRounds (block : Block) : List Block → Block
  | [] => block
  | [roundKey] => lastRound block roundKey
  | roundKey :: more => runRounds (round block roundKey) more

/-- Encrypts one block under the round keys of a key. -/
def encryptWith (keys : List Block) (block : Block) : Block :=
  match keys with
  | [] => block
  | first :: more => runRounds (addBlocks block first) more

/-- Encrypts one block. -/
def encrypt (key : Key) : Block → Block :=
  encryptWith ((roundKeys key).take 15)

end CardGate.Aes
