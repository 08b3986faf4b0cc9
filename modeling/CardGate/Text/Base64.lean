/-!
# URL-safe base64

Keys and tokens are bytes written in the alphabet A–Z, a–z, 0–9, `-`, `_`, with `=` filling up
the last group of four.  `encode` writes the one accepted form; `decode` reads it back and refuses
every other text: wrong symbols, missing or surplus padding, and spare bits that are not zero.
-/

namespace CardGate.Base64

/-- Why a text is not base64.  An offset counts bytes from the start of the text. -/
inductive Fault where
  /-- A byte outside the alphabet, or a misplaced `=`. -/
  | symbol (byte : UInt8) (offset : Nat)
  /-- A last symbol whose spare bits are not zero. -/
  | lastSymbol (byte : UInt8) (offset : Nat)
  /-- A group of a single symbol. -/
  | length (size : Nat)
  /-- A last group that is not filled up. -/
  | padding
  deriving DecidableEq, Repr

/-- The wording of a fault. -/
def Fault.message : Fault → String
  | .symbol byte offset => s!"Invalid symbol {byte.toNat}, offset {offset}."
  | .lastSymbol byte offset => s!"Invalid last symbol {byte.toNat}, offset {offset}."
  | .length size => s!"Invalid input length: {size}"
  | .padding => "Invalid padding"

/-! ## Symbols -/

/-- The byte that stands for a six-bit value. -/
def symbol (value : Nat) : UInt8 :=
  if value < 26 then UInt8.ofNat (65 + value)
  else if value < 52 then UInt8.ofNat (97 + (value - 26))
  else if value < 62 then UInt8.ofNat (48 + (value - 52))
  else if value = 62 then 45
  else 95

/-- The six-bit value that a byte stands for. -/
def value? (byte : UInt8) : Option Nat :=
  if 65 ≤ byte && byte ≤ 90 then some (byte.toNat - 65)
  else if 97 ≤ byte && byte ≤ 122 then some (byte.toNat - 97 + 26)
  else if 48 ≤ byte && byte ≤ 57 then some (byte.toNat - 48 + 52)
  else if byte == 45 then some 62
  else if byte == 95 then some 63
  else none

/-- The byte of the padding sign `=`. -/
def pad : UInt8 := 61

/-! ## Writing -/

/-- The values of the symbols that a group of at most three bytes takes. -/
def groupValues : List UInt8 → List Nat
  | [a] => [a.toNat / 4, a.toNat % 4 * 16]
  | [a, b] => [a.toNat / 4, a.toNat % 4 * 16 + b.toNat / 16, b.toNat % 16 * 4]
  | [a, b, c] =>
    [a.toNat / 4, a.toNat % 4 * 16 + b.toNat / 16, b.toNat % 16 * 4 + c.toNat / 64, c.toNat % 64]
  | _ => []

/-- The base64 bytes of a byte sequence, four for every three. -/
def encodeBytes : List UInt8 → List UInt8
  | [] => []
  | [a] => (groupValues [a]).map symbol ++ [pad, pad]
  | [a, b] => (groupValues [a, b]).map symbol ++ [pad]
  | a :: b :: c :: rest => (groupValues [a, b, c]).map symbol ++ encodeBytes rest

/-- The base64 text of a byte sequence. -/
def encode (bytes : List UInt8) : String :=
  String.ofList ((encodeBytes bytes).map fun b => Char.ofNat b.toNat)

/-! ## Reading -/

/-- The values of a row of symbols that starts at an offset. -/
def values (offset : Nat) : List UInt8 → Except Fault (List Nat)
  | [] => .ok []
  | byte :: rest =>
    match value? byte with
    | none => .error (.symbol byte offset)
    | some v =>
      match values (offset + 1) rest with
      | .error fault => .error fault
      | .ok vs => .ok (v :: vs)

/-- The bytes that the values of a group hold: one in two symbols, two in three, three in four. -/
def heldBytes : List Nat → List UInt8
  | [a, b] => [UInt8.ofNat (a * 4 + b / 16)]
  | [a, b, c] => [UInt8.ofNat (a * 4 + b / 16), UInt8.ofNat (b % 16 * 16 + c / 4)]
  | [a, b, c, d] =>
    [UInt8.ofNat (a * 4 + b / 16), UInt8.ofNat (b % 16 * 16 + c / 4), UInt8.ofNat (c % 4 * 64 + d)]
  | _ => []

/-- The bits of the last symbol of a group that belong to no byte. -/
def spareBits : List Nat → Nat
  | [_, b] => b % 16
  | [_, _, c] => c % 4
  | _ => 0

/-- Reads the last group, of at most four bytes.  A single symbol is half a byte, so it is no
group; the padding stands only at the end and fills the group up; spare bits are zero. -/
def lastGroup (offset : Nat) (group : List UInt8) : Except Fault (List UInt8) :=
  let symbols := group.takeWhile (· != pad)
  let padding := group.dropWhile (· != pad)
  match values offset symbols with
  | .error fault => .error fault
  | .ok vs =>
    if !padding.isEmpty && (symbols.length < 2 || padding.any (· != pad)) then
      .error (.symbol pad (offset + symbols.length))
    else if !group.isEmpty && symbols.length < 2 then .error (.length (offset + symbols.length))
    else if group.length % 4 ≠ 0 then .error .padding
    else if spareBits vs ≠ 0 then
      .error (.lastSymbol (symbols.getLastD pad) (offset + symbols.length - 1))
    else .ok (heldBytes vs)

/-- Reads groups of four up to the last group. -/
def groups (offset : Nat) : List UInt8 → Except Fault (List UInt8)
  | a :: b :: c :: d :: e :: rest =>
    match values offset [a, b, c, d] with
    | .error fault => .error fault
    | .ok vs =>
      match groups (offset + 4) (e :: rest) with
      | .error fault => .error fault
      | .ok more => .ok (heldBytes vs ++ more)
  | group => lastGroup offset group

/-- A byte outside the alphabet that stands alone after complete groups, such as a line end.  It
is reported before anything else. -/
def strayByte? (text : List UInt8) : Option Fault :=
  match text.getLast? with
  | some last =>
    if text.length % 4 = 1 && last != pad && (value? last).isNone then
      some (.symbol last (text.length - 1))
    else none
  | none => none

/-- The bytes that a base64 text stands for. -/
def decode (text : List UInt8) : Except Fault (List UInt8) :=
  match strayByte? text with
  | some fault => .error fault
  | none => groups 0 text

end CardGate.Base64
