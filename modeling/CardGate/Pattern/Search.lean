import CardGate.Pattern.Basic

/-!
# Searching text

A search goes through a text from left to right and takes the first match it meets, then goes on
after it, so matches do not overlap.  `cut` keeps the whole result: the text as single characters
outside any match and whole matches.  Finding, testing and replacing all read that result.
-/

namespace CardGate

/-- A piece of a searched text. -/
inductive Piece where
  /-- A character outside any match. -/
  | other (c : Char)
  /-- A match. -/
  | found (cs : List Char)
  deriving DecidableEq, Repr

namespace Piece

/-- The text of a piece. -/
def text : Piece → List Char
  | other c => [c]
  | found cs => cs

/-- The matched text, if the piece is a match. -/
def found? : Piece → Option (List Char)
  | other _ => none
  | found cs => some cs

end Piece

namespace Pattern

/-- Cuts the text after a place, of which the first `skip` characters belong to the last match.
A match without characters is passed over. -/
def cutFrom (pattern : Pattern) (skip : Nat) (before : Option Char) : List Char → List Piece
  | [] => []
  | c :: rest =>
    match skip with
    | skip + 1 => cutFrom pattern skip (some c) rest
    | 0 =>
      match pattern.matchLength? ⟨before, c :: rest⟩ with
      | some (n + 1) => .found (c :: rest.take n) :: cutFrom pattern n (some c) rest
      | _ => .other c :: cutFrom pattern 0 (some c) rest

/-- A text as the characters and matches it is made of. -/
def cut (pattern : Pattern) (cs : List Char) : List Piece :=
  pattern.cutFrom 0 none cs

theorem flatMap_text_cutFrom (pattern : Pattern) (skip : Nat) (before : Option Char)
    (cs : List Char) : (pattern.cutFrom skip before cs).flatMap Piece.text = cs.drop skip := by
  induction cs generalizing skip before with
  | nil => simp [cutFrom]
  | cons c rest ih =>
    unfold cutFrom
    split
    · rw [ih, List.drop_succ_cons]
    · split
      · rw [List.flatMap_cons, ih]
        simp [Piece.text]
      · rw [List.flatMap_cons, ih]
        simp [Piece.text]

/-- The pieces of a text make up the text. -/
theorem flatMap_text_cut (pattern : Pattern) (cs : List Char) :
    (pattern.cut cs).flatMap Piece.text = cs :=
  pattern.flatMap_text_cutFrom 0 none cs

/-- The matches of a pattern in a text, from left to right. -/
def findAll (pattern : Pattern) (cs : List Char) : List (List Char) :=
  (pattern.cut cs).filterMap Piece.found?

/-- Whether a pattern matches at any place from a given one on. -/
def matchesFrom (pattern : Pattern) (before : Option Char) : List Char → Bool
  | [] => !(pattern.ends ⟨before, []⟩).isEmpty
  | c :: rest =>
    !(pattern.ends ⟨before, c :: rest⟩).isEmpty || pattern.matchesFrom (some c) rest

/-- Whether a pattern matches anywhere in a text. -/
def matchesIn (pattern : Pattern) (cs : List Char) : Bool :=
  pattern.matchesFrom none cs

/-- The place after the first match of a pattern in the text after a place. -/
def afterFirst? (pattern : Pattern) (before : Option Char) : List Char → Option Place
  | [] => (pattern.ends ⟨before, []⟩).head?
  | c :: rest =>
    match (pattern.ends ⟨before, c :: rest⟩).head? with
    | some e => some e
    | none => pattern.afterFirst? (some c) rest

/-- Whether patterns match one after the other, with anything in between. -/
def inOrder : List Pattern → Place → Bool
  | [], _ => true
  | pattern :: more, p =>
    match pattern.afterFirst? p.before p.after with
    | some e => inOrder more e
    | none => false

/-- The text with every match left out. -/
def deleteAll (pattern : Pattern) (cs : List Char) : List Char :=
  (pattern.cut cs).flatMap fun piece =>
    match piece with
    | .other c => [c]
    | .found _ => []

end Pattern

end CardGate
