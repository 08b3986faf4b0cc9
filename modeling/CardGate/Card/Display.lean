/-!
# Showing a card number

Log lines and records show the end of a number only.  Both functions count characters, so they
also work on text that is no card number.
-/

namespace CardGate.Card

/-- Where the fourth character from the end stands, or the start of a text that has fewer. -/
def lastFourStart (cs : List Char) : Nat :=
  (cs.zipIdx.reverse[3]?.map (·.2)).getD 0

/-- The last four characters. -/
def lastFour (cs : List Char) : List Char :=
  cs.drop (lastFourStart cs)

/-- A star for every character but the last four.  Four characters or fewer are hidden
entirely. -/
def mask (cs : List Char) : List Char :=
  if cs.length ≤ 4 then List.replicate cs.length '*'
  else List.replicate (cs.length - 4) '*' ++ cs.drop (cs.length - 4)

end CardGate.Card
