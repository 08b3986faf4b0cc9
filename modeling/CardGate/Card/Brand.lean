import CardGate.Card.Luhn

/-!
# Card brands

An issuer owns ranges of numbers: the first digits of a number, read as a number of their own, lie
between two bounds, and the whole number has one of a few lengths.  `brand` looks a number up in
the ranges of the brands.
-/

namespace CardGate.Card

/-- The brand of a card. -/
inductive Brand where
  | visa
  | mastercard
  | amex
  | discover
  | unknown
  deriving DecidableEq, Repr

/-- The name of a brand. -/
def Brand.name : Brand → String
  | visa => "Visa"
  | mastercard => "Mastercard"
  | amex => "Amex"
  | discover => "Discover"
  | unknown => "Unknown"

/-- A range of card numbers: the first `lead` digits lie between `low` and `high`, and there are
as many digits as one of `lengths` says. -/
structure NumberRange where
  lead : Nat
  low : Nat
  high : Nat
  lengths : List Nat

/-- The number that a row of digits writes. -/
def number (digits : List Char) : Nat :=
  digits.foldl (fun n c => n * 10 + digitValue c) 0

/-- Whether a row of characters is a number of the range. -/
def NumberRange.contains (range : NumberRange) (digits : List Char) : Bool :=
  digits.all Char.isDigit && range.lengths.contains digits.length &&
    range.low ≤ number (digits.take range.lead) && number (digits.take range.lead) ≤ range.high

/-- The ranges of each brand. -/
def brandRanges : List (Brand × NumberRange) :=
  [(.visa, ⟨1, 4, 4, [13, 16]⟩),
   (.mastercard, ⟨2, 51, 55, [16]⟩),
   (.mastercard, ⟨2, 22, 27, [16]⟩),
   (.amex, ⟨2, 34, 34, [15]⟩),
   (.amex, ⟨2, 37, 37, [15]⟩),
   (.discover, ⟨4, 6011, 6011, [16]⟩),
   (.discover, ⟨3, 644, 649, [16]⟩),
   (.discover, ⟨2, 65, 65, [16]⟩)]

/-- The brand of a card number, with separators allowed. -/
def brand (cs : List Char) : Brand :=
  let digits := stripSeparators cs
  match brandRanges.find? fun entry => entry.2.contains digits with
  | some (b, _) => b
  | none => .unknown

end CardGate.Card
