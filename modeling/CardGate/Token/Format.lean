import CardGate.Pattern.Search
import CardGate.Text.Case

/-!
# Token formats

A token stands for a card number outside the vault.  There are two formats, and a gateway uses
one of them.  A tagged token is `tok_` with the base64 of 32 random bytes; a numeric token has
sixteen digits beginning with 9999, the last of which is the Luhn check digit, so that systems
that validate card numbers accept it.

The beginning of a token, its sentinel, marks a value as already replaced; the pattern of a format
finds its tokens in a text.
-/

namespace CardGate

/-- How tokens look. -/
inductive TokenFormat where
  | tagged
  | numeric
  deriving DecidableEq, Repr

namespace TokenFormat

/-- The format of a gateway that names none. -/
instance : Inhabited TokenFormat := ⟨tagged⟩

/-- The name of a format in settings. -/
def name : TokenFormat → String
  | tagged => "prefix"
  | numeric => "luhn"

/-- The format of a given name, in any case and with blanks around it. -/
def ofName? (s : String) : Option TokenFormat :=
  [tagged, numeric].find? fun format => format.name == Text.lowered (Text.trimmed s)

/-- What every token of a format begins with. -/
def sentinel : TokenFormat → String
  | tagged => "tok_"
  | numeric => "9999"

/-- Whether a value already carries the sentinel. -/
def marks (format : TokenFormat) (value : String) : Bool :=
  format.sentinel.toList.isPrefixOf value.toList

/-- A letter, a digit, `_` or `-`. -/
def isTagChar (c : Char) : Bool :=
  c.isAlphanum || c == '_' || c == '-'

open Pattern in
/-- What the tokens of a format look like within a text. -/
def pattern : TokenFormat → Pattern
  | tagged => row [literal "tok_", oneOrMore isTagChar, many (· == '=')]
  | numeric => row [wordEdge, literal "9999", times 12 digit, wordEdge]

/-- The tokens in a text, from left to right. -/
def tokensIn (format : TokenFormat) (s : String) : List String :=
  (format.pattern.findAll s.toList).map String.ofList

end TokenFormat

end CardGate
