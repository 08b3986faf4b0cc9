import CardGate.Pattern.Search

/-!
# Card numbers in text

A card number stands in a text as a whole word of digits in one of the shapes of the six schemes
that the gateway protects: Visa, Mastercard, Amex, Diners, Discover and JCB.  A number written
with separators is not recognised.
-/

namespace CardGate.Card

open Pattern in
/-- The shapes of card numbers, each a whole word. -/
def numberPattern : Pattern :=
  row [wordEdge,
    choice
      (row [char '4', times 12 digit, maybe (times 3 digit)])
      [row [char '5', between '1' '5', times 14 digit],
       row [char '3', one fun c => c == '4' || c == '7', times 13 digit],
       row [char '3',
         choice
           (row [char '0', between '0' '5'])
           [row [one fun c => c == '6' || c == '8', digit]],
         times 11 digit],
       row [char '6', choice (literal "011") [row [char '5', times 2 digit]], times 12 digit],
       row [choice (literal "2131") [literal "1800", row [literal "35", times 3 digit]],
         times 11 digit]],
    wordEdge]

/-- Whether a text holds a card number anywhere. -/
def looksLikeNumber (s : String) : Bool :=
  numberPattern.matchesIn s.toList

end CardGate.Card
