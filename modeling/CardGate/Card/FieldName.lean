import CardGate.Text.Case

/-!
# Names of card fields

Whether a member of a document carries a card number is decided by its name, without regard to
case.  Two short names count only when they are the whole name, since `panel` and `discard` are
harmless; five longer ones count wherever they occur.
-/

namespace CardGate.Card

/-- Names that mark a card field when they stand alone. -/
def wholeNames : List String :=
  ["card", "pan"]

/-- Names that mark a card field wherever they occur. -/
def partNames : List String :=
  ["card_number", "cardnumber", "creditcard", "credit_card", "account_number"]

/-- Whether a member of this name carries a card number. -/
def isFieldName (name : String) : Bool :=
  let name := Text.lower name.toList
  wholeNames.any (·.toList == name) || partNames.any fun part => Text.occursIn part.toList name

end CardGate.Card
