/-!
# Galois counter mode

Authenticated encryption over any block cipher with blocks of sixteen bytes and nonces of twelve.
The plaintext is added to a stream of key bytes, and a tag of sixteen bytes authenticates the
ciphertext, whose blocks are the coefficients of a polynomial over the field of 2^128 elements.
There is no additional data.

`sealWith` puts the tag behind the ciphertext; `openWith` gives the plaintext back only if the tag
is the one that sealing would have put there.
-/

namespace CardGate.Gcm

/-- A block of sixteen bytes. -/
abbrev Block := Vector UInt8 16

/-- A number used once per message. -/
abbrev Nonce := Vector UInt8 12

/-- The length of a tag. -/
def tagLength : Nat := 16

/-! ## The field -/

/-- The number whose big-endian bytes are given, in 128 bits. -/
def ofBytes (bytes : List UInt8) : BitVec 128 :=
  BitVec.ofNat 128 (bytes.foldl (fun n b => n * 256 + b.toNat) 0)

/-- The big-endian bytes of a field element. -/
def toBlock (x : BitVec 128) : Block :=
  Vector.ofFn fun i => UInt8.ofNat (x.toNat >>> (8 * (15 - i.val)))

/-- Multiplication by the indeterminate.  Coefficients run from the most significant bit down. -/
def timesX (v : BitVec 128) : BitVec 128 :=
  if v.getLsbD 0 then (v >>> 1) ^^^ (0xe1#128 <<< 120) else v >>> 1

/-- Adds to `acc` the product of `y` with the terms of `x` from the `k`-th last on. -/
def addProduct (x y acc : BitVec 128) : Nat → BitVec 128
  | 0 => acc
  | k + 1 => addProduct x (timesX y) (if x.getLsbD k then acc ^^^ y else acc) k

/-- The product of two field elements. -/
def product (x y : BitVec 128) : BitVec 128 :=
  addProduct x y 0 128

/-! ## The tag -/

/-- Piece `i` of a byte sequence that is cut every sixteen bytes, filled up with zeros. -/
def paddedBlock (bytes : List UInt8) (i : Nat) : List UInt8 :=
  let piece := (bytes.drop (16 * i)).take 16
  piece ++ List.replicate (16 - piece.length) 0

/-- The number of blocks that a byte sequence fills. -/
def blockCount (bytes : List UInt8) : Nat :=
  (bytes.length + 15) / 16

/-- The hash of a ciphertext: its blocks and its length in bits as a polynomial evaluated at
`h`. -/
def hash (h : BitVec 128) (ciphertext : List UInt8) : BitVec 128 :=
  let blocks := (List.range (blockCount ciphertext)).map fun i => ofBytes (paddedBlock ciphertext i)
  let sum := blocks.foldl (fun y x => product (y ^^^ x) h) 0
  product (sum ^^^ BitVec.ofNat 128 (8 * ciphertext.length)) h

/-- The counter block `n` of a message. -/
def counterBlock (nonce : Nonce) (n : Nat) : Block :=
  nonce ++ #v[UInt8.ofNat (n >>> 24), UInt8.ofNat (n >>> 16), UInt8.ofNat (n >>> 8), UInt8.ofNat n]

/-- The tag of a ciphertext. -/
def tag (encrypt : Block → Block) (nonce : Nonce) (ciphertext : List UInt8) : Block :=
  let h := ofBytes (encrypt (Vector.replicate 16 0)).toList
  Vector.zipWith (· ^^^ ·) (toBlock (hash h ciphertext)) (encrypt (counterBlock nonce 1))

/-! ## Messages -/

/-- The key bytes of a message of a given number of blocks. -/
def keyStream (encrypt : Block → Block) (nonce : Nonce) (blocks : Nat) : List UInt8 :=
  (List.range blocks).flatMap fun i => (encrypt (counterBlock nonce (i + 2))).toList

/-- A byte sequence added to the key bytes of its message. -/
def addStream (encrypt : Block → Block) (nonce : Nonce) (bytes : List UInt8) : List UInt8 :=
  List.zipWith (· ^^^ ·) bytes (keyStream encrypt nonce (blockCount bytes))

theorem length_keyStream (encrypt : Block → Block) (nonce : Nonce) (blocks : Nat) :
    (keyStream encrypt nonce blocks).length = 16 * blocks := by
  simp only [keyStream, List.length_flatMap, Vector.length_toList]
  induction blocks with
  | zero => rfl
  | succ n ih =>
    simp only [List.range_succ, List.map_append, List.sum_append, ih, Nat.mul_succ]
    rfl

@[simp]
theorem length_addStream (encrypt : Block → Block) (nonce : Nonce) (bytes : List UInt8) :
    (addStream encrypt nonce bytes).length = bytes.length := by
  simp only [addStream, List.length_zipWith, length_keyStream, blockCount]
  omega

theorem zipWith_xor_zipWith_xor {as bs : List UInt8} (h : as.length ≤ bs.length) :
    List.zipWith (· ^^^ ·) (List.zipWith (· ^^^ ·) as bs) bs = as := by
  induction as generalizing bs with
  | nil => simp
  | cons a as ih =>
    cases bs with
    | nil => simp at h
    | cons b bs =>
      rw [List.zipWith_cons_cons, List.zipWith_cons_cons, ih (Nat.le_of_succ_le_succ h),
        UInt8.xor_assoc, UInt8.xor_self, UInt8.xor_zero]

/-- The key bytes cancel when they are added twice. -/
theorem addStream_addStream (encrypt : Block → Block) (nonce : Nonce) (bytes : List UInt8) :
    addStream encrypt nonce (addStream encrypt nonce bytes) = bytes := by
  have h : blockCount (addStream encrypt nonce bytes) = blockCount bytes := by simp [blockCount]
  rw [addStream, h, addStream, zipWith_xor_zipWith_xor]
  rw [length_keyStream, blockCount]
  omega

/-- The ciphertext of a plaintext and its tag. -/
def sealWith (encrypt : Block → Block) (nonce : Nonce) (plaintext : List UInt8) : List UInt8 :=
  let ciphertext := addStream encrypt nonce plaintext
  ciphertext ++ (tag encrypt nonce ciphertext).toList

/-- The plaintext of a ciphertext with its tag, if the tag is right. -/
def openWith (encrypt : Block → Block) (nonce : Nonce) (message : List UInt8) :
    Option (List UInt8) :=
  let ciphertext := message.take (message.length - tagLength)
  if (tag encrypt nonce ciphertext).toList = message.drop (message.length - tagLength) then
    some (addStream encrypt nonce ciphertext)
  else none

@[simp]
theorem length_sealWith (encrypt : Block → Block) (nonce : Nonce) (plaintext : List UInt8) :
    (sealWith encrypt nonce plaintext).length = plaintext.length + 16 := by
  simp [sealWith]

/-- Opening gives back what was sealed, whatever the block cipher. -/
theorem openWith_sealWith (encrypt : Block → Block) (nonce : Nonce) (plaintext : List UInt8) :
    openWith encrypt nonce (sealWith encrypt nonce plaintext) = some plaintext := by
  simp [openWith, sealWith, tagLength, addStream_addStream]

end CardGate.Gcm
