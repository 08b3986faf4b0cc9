import CardGate.Counter
import CardGate.Text.Blank

/-!
# The Luhn checksum

The last digit of a card number is chosen so that a weighted sum of all digits is a multiple of
ten.  Counted from the right, every second digit weighs double, and the doubled value contributes
the sum of its own decimal digits.

`isLuhn?` tests a number, with separators allowed; `checkDigit?` computes the digit that completes
one.  The sum has 32 bits, and both give up on a row of digits that is too long for it.
-/

namespace CardGate.Card

/-- Drops the spaces and dashes that people type into card numbers. -/
def stripSeparators (cs : List Char) : List Char :=
  cs.filter fun c => c != ' ' && c != '-'

/-- A digit is no separator. -/
theorem not_separator_of_digit {c : Char} (h : c.isDigit = true) :
    (c != ' ' && c != '-') = true := by
  rw [Bool.and_eq_true, bne_iff_ne, bne_iff_ne]
  constructor
  · intro hspace
    rw [hspace] at h
    cases h
  · intro hdash
    rw [hdash] at h
    cases h

theorem stripSeparators_of_digits {cs : List Char} (digits : ∀ c ∈ cs, c.isDigit = true) :
    stripSeparators cs = cs :=
  List.filter_eq_self.2 fun c hc => not_separator_of_digit (digits c hc)

/-- The value of an ASCII digit. -/
def digitValue (c : Char) : Nat :=
  c.toNat - '0'.toNat

/-- The character of a digit. -/
def digitChar (d : Nat) : Char :=
  Char.ofNat ('0'.toNat + d)

/-- What a doubled digit contributes: the digit sum of twice its value. -/
def doubled (d : Nat) : Nat :=
  2 * d / 10 + 2 * d % 10

/-- What a digit adds to the sum. -/
def weigh (double : Bool) (d : Nat) : Nat :=
  if double then doubled d else d

/-- A sum with digits added, which are given from right to left. -/
def addDigits? (double : Bool) (sum : UInt32) : List Nat → Option UInt32
  | [] => some sum
  | d :: rest => (Counter.add? sum (weigh double d)).bind fun sum => addDigits? (!double) sum rest

/-- Whether a text is a number with a correct check digit.  Spaces and dashes are ignored; any
other character that is no digit, or fewer than two digits, makes it wrong. -/
def isLuhn? (cs : List Char) : Option Bool :=
  let digits := stripSeparators cs
  if digits.length < 2 || !digits.all Char.isDigit then some false
  else (addDigits? false 0 (digits.reverse.map digitValue)).map (· % 10 == 0)

/-- The digit that completes a number.  Characters that are no digits are ignored. -/
def checkDigit? (cs : List Char) : Option Nat :=
  (addDigits? true 0 ((cs.filter Char.isDigit).reverse.map digitValue)).map fun sum =>
    ((10 - sum % 10) % 10).toNat

/-- A check digit is a digit. -/
theorem getD_checkDigit?_lt (cs : List Char) : (checkDigit? cs).getD 0 < 10 := by
  unfold checkDigit?
  cases addDigits? true 0 ((cs.filter Char.isDigit).reverse.map digitValue) with
  | none => decide
  | some sum =>
    rw [Option.map_some, Option.getD_some, UInt32.toNat_mod]
    exact Nat.mod_lt _ (by decide)

end CardGate.Card
