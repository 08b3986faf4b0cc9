/-!
# Numerals

Numbers in lines and settings are digits with an optional plus sign and nothing else: no blanks,
no separators.  A numeral that exceeds the bound of its type is no number at all.
-/

namespace CardGate.Numeral

/-- The value of a hexadecimal digit. -/
def hexDigit? (c : Char) : Option Nat :=
  if c.isDigit then some (c.toNat - '0'.toNat)
  else if 'a' ≤ c && c ≤ 'f' then some (c.toNat - 'a'.toNat + 10)
  else if 'A' ≤ c && c ≤ 'F' then some (c.toNat - 'A'.toNat + 10)
  else none

/-- The value of a decimal digit. -/
def decimalDigit? (c : Char) : Option Nat :=
  if c.isDigit then some (c.toNat - '0'.toNat) else none

/-- The value of a row of digits read after the value `acc`. -/
def digits? (radix : Nat) (digit? : Char → Option Nat) (acc : Nat) : List Char → Option Nat
  | [] => some acc
  | c :: rest =>
    match digit? c with
    | some d => digits? radix digit? (acc * radix + d) rest
    | none => none

/-- The value of at least one digit. -/
def natural? (radix : Nat) (digit? : Char → Option Nat) (cs : List Char) : Option Nat :=
  if cs.isEmpty then none else digits? radix digit? 0 cs

/-- The text after an optional plus sign. -/
def afterPlus : List Char → List Char
  | '+' :: rest => rest
  | cs => cs

/-- A decimal number below `bound`. -/
def decimalBelow? (bound : Nat) (cs : List Char) : Option Nat :=
  (natural? 10 decimalDigit? (afterPlus cs)).filter (· < bound)

/-- A hexadecimal number below `bound`. -/
def hexBelow? (bound : Nat) (cs : List Char) : Option Nat :=
  (natural? 16 hexDigit? (afterPlus cs)).filter (· < bound)

/-- A decimal number with an optional sign, from `-bound` up to but not including `bound`. -/
def signedWithin? (bound : Nat) : List Char → Option Int
  | '-' :: rest => ((natural? 10 decimalDigit? rest).filter (· ≤ bound)).map fun n => -(n : Int)
  | cs => (decimalBelow? bound cs).map Int.ofNat

/-- The bound of sizes and lengths, which are 64-bit words. -/
def sizeBound : Nat := UInt64.size

/-- The sum of two sizes, or the largest size if the sum is beyond it. -/
def saturatingAdd (a b : Nat) : Nat :=
  min (a + b) (sizeBound - 1)

theorem saturatingAdd_le (a b : Nat) : saturatingAdd a b ≤ a + b :=
  Nat.min_le_left _ _

theorem saturatingAdd_of_lt {a b : Nat} (h : a + b < sizeBound) : saturatingAdd a b = a + b :=
  Nat.min_eq_left (Nat.le_sub_one_of_lt h)

/-- A hexadecimal digit in lower case. -/
def hexDigit (n : Nat) : Char :=
  Char.ofNat (if n < 10 then 48 + n else 87 + n)

/-- Bytes in hexadecimal, two digits for each. -/
def hexOfBytes (bytes : List UInt8) : String :=
  String.ofList (bytes.flatMap fun b => [hexDigit (b.toNat / 16), hexDigit (b.toNat % 16)])

/-- A number in hexadecimal with capital letters. -/
def hexCapital (n : Nat) : String :=
  String.ofList ((Nat.toDigits 16 n).map Char.toUpper)

end CardGate.Numeral
