import CardGate.Json.Basic
import CardGate.Pattern.Search

/-!
# Rules for fields

A rule says what the value of one field of a request has to satisfy.  A criterion that is absent,
zero or empty is not checked.
-/

namespace CardGate.Validation

/-- A shape of texts together with the text that describes it.  The shape may be any test of a text,
so that every regular expression is one. -/
structure FieldPattern where
  source : String
  accepts : List Char → Bool

/-- The texts in which a pattern matches somewhere. -/
def FieldPattern.ofPattern (source : String) (pattern : Pattern) : FieldPattern :=
  ⟨source, pattern.matchesIn⟩

/-- What the value of a field has to satisfy. -/
structure Rule where
  required : Bool
  /-- The least length in bytes; zero for none. -/
  minLength : Nat
  /-- The greatest length in bytes; zero for none. -/
  maxLength : Nat
  pattern : Option FieldPattern
  /-- The characters that may occur; empty for any. -/
  allowedChars : String
  /-- Whether a valid value is cleaned before it is handed on. -/
  sanitize : Bool
  /-- A further check, which gives its complaint. -/
  custom : Option (Json → Option String)

namespace Rule

/-- The rule that every value satisfies. -/
def optional : Rule :=
  ⟨false, 0, 0, none, "", false, none⟩

/-- The rule that a value is there. -/
def mandatory : Rule :=
  { optional with required := true }

end Rule

open Pattern

/-- A letter A to Z in either case. -/
def isLetter (c : Char) : Bool :=
  c.isAlpha

/-- A pattern up to `n` times. -/
def upTo (n : Nat) (pattern : Pattern) : Pattern :=
  match n with
  | 0 => Pattern.empty
  | n + 1 => Pattern.maybe (Pattern.seq pattern (upTo n pattern))

/-- Names of users: 3 to 50 letters, digits, `_`, `.` and `-`. -/
def usernamePattern : FieldPattern :=
  let letter : Pattern := one fun c => c.isAlphanum || c == '_' || c == '.' || c == '-'
  .ofPattern "^[a-zA-Z0-9_.-]\x7b3,50\x7d$"
    (row [textStart, times 3 letter, upTo 47 letter, textEnd])

/-- Mail addresses, with at least two letters after the last dot. -/
def emailPattern : FieldPattern :=
  let local? (c : Char) : Bool := c.isAlphanum || "._%+-".toList.contains c
  let host? (c : Char) : Bool := c.isAlphanum || c == '.' || c == '-'
  .ofPattern "^[a-zA-Z0-9._%+-]+@[a-zA-Z0-9.-]+\\.[a-zA-Z]\x7b2,\x7d$"
    (row [textStart, oneOrMore local?, char '@', oneOrMore host?, char '.', one isLetter,
      one isLetter, many isLetter, textEnd])

end CardGate.Validation
