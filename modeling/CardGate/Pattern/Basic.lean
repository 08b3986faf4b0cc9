import CardGate.Text.Blank
import CardGate.Text.WordChar

/-!
# Patterns over text

Card numbers, tokens and dangerous fragments are found by patterns.  A pattern says where it can
end when it starts at a given place: `ends` lists these places in order of preference, so the
first one is the match.  An alternative prefers its first branch, a repetition prefers the longest
run unless it is reluctant, and the edges of words and of the text match without consuming
anything.

Repetition is over a single class of characters, so the possible ends of a repetition are the
places of one run and every definition here is structural.
-/

namespace CardGate

/-- A place in a text: the character before it, if any, and the text after it. -/
structure Place where
  before : Option Char
  after : List Char
  deriving DecidableEq, Repr

namespace Place

/-- The place at the start of a text. -/
def start (cs : List Char) : Place :=
  ⟨none, cs⟩

/-- Whether exactly one of the neighbours of a place is a word character. -/
def atWordEdge (p : Place) : Bool :=
  p.before.any Text.isWordChar != p.after.head?.any Text.isWordChar

/-- The places reached by passing any number of characters of a class, the nearest first. -/
def run (accepts : Char → Bool) (before : Option Char) : List Char → List Place
  | [] => [⟨before, []⟩]
  | c :: rest =>
    ⟨before, c :: rest⟩ :: if accepts c then run accepts (some c) rest else []

end Place

/-- A pattern over text. -/
inductive Pattern where
  /-- Matches without consuming anything. -/
  | empty
  /-- One character of a class. -/
  | one (accepts : Char → Bool)
  /-- One pattern after the other. -/
  | seq (first second : Pattern)
  /-- Either pattern, the first preferred. -/
  | either (first second : Pattern)
  /-- As many characters of a class as possible. -/
  | many (accepts : Char → Bool)
  /-- As few characters of a class as possible. -/
  | few (accepts : Char → Bool)
  /-- The edge of a word. -/
  | wordEdge
  /-- The start of the text. -/
  | textStart
  /-- The end of the text. -/
  | textEnd

namespace Pattern

/-- The places where a pattern can end when it starts at `p`, the preferred one first. -/
def ends : Pattern → Place → List Place
  | empty, p => [p]
  | one accepts, p =>
    match p.after with
    | [] => []
    | c :: rest => if accepts c then [⟨some c, rest⟩] else []
  | seq first second, p => (first.ends p).flatMap second.ends
  | either first second, p => first.ends p ++ second.ends p
  | many accepts, p => (Place.run accepts p.before p.after).reverse
  | few accepts, p => Place.run accepts p.before p.after
  | wordEdge, p => if p.atWordEdge then [p] else []
  | textStart, p => if p.before.isNone then [p] else []
  | textEnd, p => if p.after.isEmpty then [p] else []

/-- The number of characters matched at a place. -/
def matchLength? (pattern : Pattern) (p : Place) : Option Nat :=
  (pattern.ends p).head?.map fun e => p.after.length - e.after.length

/-! ## Building patterns -/

/-- One given character. -/
def char (c : Char) : Pattern :=
  one (· == c)

/-- One character between two bounds. -/
def between (low high : Char) : Pattern :=
  one fun c => low ≤ c && c ≤ high

/-- One ASCII digit. -/
def digit : Pattern :=
  one Char.isDigit

/-- Patterns one after the other. -/
def row : List Pattern → Pattern
  | [] => empty
  | [p] => p
  | p :: ps => seq p (row ps)

/-- Any of several patterns, earlier ones preferred.  There must be at least one. -/
def choice (first : Pattern) : List Pattern → Pattern
  | [] => first
  | p :: ps => either first (choice p ps)

/-- A pattern a fixed number of times. -/
def times (n : Nat) (pattern : Pattern) : Pattern :=
  row (List.replicate n pattern)

/-- A pattern or nothing. -/
def maybe (pattern : Pattern) : Pattern :=
  either pattern empty

/-- At least one character of a class, as many as possible. -/
def oneOrMore (accepts : Char → Bool) : Pattern :=
  seq (one accepts) (many accepts)

/-- The characters of a string one after the other. -/
def literal (s : String) : Pattern :=
  row (s.toList.map char)

/-- Whether two characters are the same letter.  `letter` is in lower case.  Beside A to Z, the
long s folds to `s` and the kelvin sign to `k`. -/
def sameLetter (letter c : Char) : Bool :=
  c.toLower == letter || (letter == 's' && c == '\u017F') || (letter == 'k' && c == '\u212A')

/-- A string in lower case, matched without regard to case. -/
def anyCase (s : String) : Pattern :=
  row (s.toList.map fun letter => one (sameLetter letter))

/-- Blanks, as many as there are. -/
def blanks : Pattern :=
  many Text.isBlank

/-- Anything but the end of a line. -/
def notNewline (c : Char) : Bool :=
  c != '\n'

end Pattern

end CardGate
