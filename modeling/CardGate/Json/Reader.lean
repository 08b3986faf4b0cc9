import CardGate.Json.Basic
import CardGate.Json.Fault
import CardGate.Text.Numeral

/-!
# Reading JSON

Each reader takes the text that is left and gives what it read and the text after it.  Arrays and
objects may be nested 127 deep.  A number keeps its digits; only its exponent is written in one
way, as `e` with a sign.

An object whose first member has the reserved name `numeralName` stands for a number: its only
member is a string, which is read as a number is.  The object that `members?` reads as a whole is
taken by its members in any case.

The readers of values call each other with less fuel each time.  Every two calls consume a
character, so the fuel that `parse` gives never runs out before the text does.
-/

namespace CardGate.Json

/-- A reader's answer: what it read, and the text after it. -/
abbrev Read (α : Type) := Except Fault (α × List Char)

/-- Whether a character is white space between the parts of a document. -/
def isSpace (c : Char) : Bool :=
  c == ' ' || c == '\n' || c == '\t' || c == '\r'

/-- Skips white space. -/
def skipSpace (cs : List Char) : List Char :=
  cs.dropWhile isSpace

/-- Skips the colon between a name and its value. -/
def colon (cs : List Char) : Except Fault (List Char) :=
  match skipSpace cs with
  | [] => .error (.here .endInObject [])
  | ':' :: rest => .ok rest
  | cs => .error (.here .expectedColon cs)

/-! ## Literals and numbers -/

/-- Reads the rest of a literal. -/
def literal : List Char → List Char → Except Fault (List Char)
  | [], cs => .ok cs
  | _ :: _, [] => .error (.here .endInValue [])
  | letter :: letters, c :: rest =>
    if c = letter then literal letters rest else .error (.here .expectedLiteral (c :: rest))

/-- Reads at least one digit.  Anything else in its place is the given fault. -/
def someDigits (otherwise : Cause) (cs : List Char) : Read (List Char) :=
  match cs.takeWhile Char.isDigit with
  | [] => .error (.here (if cs.isEmpty then .endInValue else otherwise) cs)
  | digits => .ok (digits, cs.dropWhile Char.isDigit)

/-- Reads the whole part of a number, which has no leading zero. -/
def wholePart (cs : List Char) : Read (List Char) :=
  match someDigits .missingDigit cs with
  | .error fault => .error fault
  | .ok (digits, rest) =>
    match digits with
    | '0' :: _ :: _ => .error (.here .badNumber (cs.drop 1))
    | _ => .ok (digits, rest)

/-- Reads the decimals of a number, if there are any. -/
def decimals : List Char → Read (List Char)
  | '.' :: rest => (someDigits .badNumber rest).map fun (digits, rest) => ('.' :: digits, rest)
  | cs => .ok ([], cs)

/-- The sign of an exponent and the text after it. -/
def exponentSign : List Char → Char × List Char
  | '+' :: rest => ('+', rest)
  | '-' :: rest => ('-', rest)
  | cs => ('+', cs)

/-- Reads the exponent of a number, if there is one. -/
def exponent : List Char → Read (List Char)
  | [] => .ok ([], [])
  | c :: rest =>
    if c = 'e' ∨ c = 'E' then
      let (sign, rest) := exponentSign rest
      (someDigits .missingDigit rest).map fun (digits, rest) => ('e' :: sign :: digits, rest)
    else .ok ([], c :: rest)

/-- Reads a number after its sign. -/
def unsignedNumber (cs : List Char) : Read (List Char) :=
  match wholePart cs with
  | .error fault => .error fault
  | .ok (whole, cs) =>
    match decimals cs with
    | .error fault => .error fault
    | .ok (fraction, cs) =>
      (exponent cs).map fun (power, cs) => (whole ++ fraction ++ power, cs)

/-- Reads a number. -/
def number : List Char → Read (List Char)
  | '-' :: rest => (unsignedNumber rest).map fun (digits, rest) => ('-' :: digits, rest)
  | cs => unsignedNumber cs

/-! ## Strings -/

/-- Reads four hexadecimal digits.  They are taken as four bytes, whatever these are. -/
def hexQuad (cs : List Char) : Read Nat :=
  match cs with
  | a :: b :: c :: d :: rest =>
    match Numeral.natural? 16 Numeral.hexDigit? [a, b, c, d] with
    | some n => .ok (n, rest)
    | none => .error (.outer .badEscape (byteCount cs - 4))
  | cs =>
    if byteCount cs < 4 then .error (.here .endInString [])
    else .error (.outer .badEscape (byteCount cs - 4))

/-- Reads the second half of a surrogate pair, after the first half `high`. -/
def lowHalf (high : Nat) : List Char → Except Fault Char
  | [] => .error (.here .endInString [])
  | ['\\'] => .error (.here .endInString [])
  | '\\' :: 'u' :: rest =>
    match hexQuad rest with
    | .error fault => .error fault
    | .ok (low, after) =>
      if 0xDC00 ≤ low ∧ low ≤ 0xDFFF then
        .ok (Char.ofNat ((high - 0xD800) * 0x400 + (low - 0xDC00) + 0x10000))
      else .error (.before .loneSurrogate after)
  | '\\' :: rest => .error (.here .cutSurrogate rest)
  | cs => .error (.here .cutSurrogate cs)

/-- What an escape stands for, and the number of characters after the backslash that it takes. -/
def escape : List Char → Except Fault (Char × Nat)
  | [] => .error (.here .endInString [])
  | 'u' :: rest =>
    match hexQuad rest with
    | .error fault => .error fault
    | .ok (n, after) =>
      if 0xDC00 ≤ n ∧ n ≤ 0xDFFF then .error (.before .loneSurrogate after)
      else if 0xD800 ≤ n ∧ n ≤ 0xDBFF then (lowHalf n after).map fun c => (c, 11)
      else .ok (Char.ofNat n, 5)
  | c :: rest =>
    match c with
    | '"' => .ok ('"', 1)
    | '\\' => .ok ('\\', 1)
    | '/' => .ok ('/', 1)
    | 'b' => .ok ('\x08', 1)
    | 'f' => .ok ('\x0c', 1)
    | 'n' => .ok ('\n', 1)
    | 'r' => .ok ('\r', 1)
    | 't' => .ok ('\t', 1)
    | _ => .error (.here .badEscape (c :: rest))

/-- Reads a string up to its closing quote.  The first `skip` characters belong to an escape that
has been read already. -/
def stringFrom (skip : Nat) : List Char → Read (List Char)
  | [] => .error (.here .endInString [])
  | c :: rest =>
    match skip with
    | skip + 1 => stringFrom skip rest
    | 0 =>
      if c = '"' then .ok ([], rest)
      else if c = '\\' then
        match escape rest with
        | .error fault => .error fault
        | .ok (d, length) => (stringFrom length rest).map fun (s, rest) => (d :: s, rest)
      else if c < ' ' then .error (.before .controlCharacter rest)
      else (stringFrom 0 rest).map fun (s, rest) => (c :: s, rest)

/-- Reads a string after its opening quote. -/
def string (cs : List Char) : Read String :=
  (stringFrom 0 cs).map fun (s, rest) => (String.ofList s, rest)

/-! ## Numbers in strings -/

/-- The reserved name of the member that holds a number. -/
def numeralName : String := "$serde_json::private::Number"

/-- A fault of a number that takes up the whole text.  What stands in the place of a digit has
been passed over by then, so such a fault shows at the byte after it, if there is one. -/
def wholeFault : Fault → Fault
  | .outer .missingDigit (left + 1) => .outer .badNumber left
  | fault => fault

/-- Reads a whole text as a number, with nothing around it. -/
def numeral (cs : List Char) : Except Fault (List Char) :=
  match cs with
  | [] => .error (.here .endInValue [])
  | c :: _ =>
    if c = '-' ∨ c.isDigit then
      match number cs with
      | .error fault => .error (wholeFault fault)
      | .ok (digits, []) => .ok digits
      | .ok (_, rest) => .error (.here .badNumber rest)
    else .error (.here .badNumber cs)

/-- Whether a number is written as a whole one and fits 64 bits: from zero up without a sign, or
below zero with one. -/
def isInteger (digits : List Char) : Bool :=
  (Numeral.decimalBelow? Numeral.sizeBound digits).isSome ||
    (Numeral.signedWithin? (Numeral.sizeBound / 2) digits).any (· < 0)

/-- The fault of a value that is no string although it should hold a number.  A literal and a
number are read first and may have a fault of their own. -/
def misfit (cs : List Char) : Fault :=
  let after (found : Misfit) : Except Fault (List Char) → Fault
    | .ok rest => .before (.expectedNumeral found) rest
    | .error fault => fault
  match cs with
  | [] => .here .endInValue []
  | c :: rest =>
    match c with
    | 'n' => after .null (literal "ull".toList rest)
    | 't' => after (.bool true) (literal "rue".toList rest)
    | 'f' => after (.bool false) (literal "alse".toList rest)
    | '[' => .before (.expectedNumeral .array) cs
    | '\x7b' => .before (.expectedNumeral .object) cs
    | c =>
      if c = '-' ∨ c.isDigit then
        match number (c :: rest) with
        | .error fault => fault
        | .ok (digits, rest) =>
          .before (.expectedNumeral
            (if isInteger digits then .integer (String.ofList digits) else .number)) rest
      else .here .expectedValue (c :: rest)

/-- Reads the end of an object that holds a number. -/
def closing (cs : List Char) : Except Fault (List Char) :=
  match skipSpace cs with
  | [] => .error (.here .endInObject [])
  | '\x7d' :: rest => .ok rest
  | ',' :: rest => .error (.here .trailingComma (',' :: rest))
  | cs => .error (.here .trailingText cs)

/-- Reads an object that holds a number, after its name. -/
def heldNumber (cs : List Char) : Read Json :=
  match colon cs with
  | .error fault => .error fault
  | .ok rest =>
    match skipSpace rest with
    | '"' :: rest =>
      match stringFrom 0 rest with
      | .error fault => .error fault
      | .ok (s, rest) =>
        match numeral s with
        | .error fault => .error (.inner (fault.locate s))
        | .ok digits => (closing rest).map fun rest => (num (String.ofList digits), rest)
    | cs => .error (misfit cs)

/-- The text after the reserved name, if an object begins with that name. -/
def afterNumeralName? (cs : List Char) : Option (List Char) :=
  match skipSpace cs with
  | '"' :: rest =>
    match string rest with
    | .ok (name, rest) => if name = numeralName then some rest else none
    | .error _ => none
  | _ => none

/-! ## Values -/

/-- How deep arrays and objects may be nested. -/
def maxDepth : Nat := 127

mutual

/-- Reads a value that may be nested `depth` deep. -/
def value (fuel depth : Nat) (cs : List Char) : Read Json :=
  match fuel with
  | 0 => .error (.here .endInValue cs)
  | fuel + 1 =>
    match skipSpace cs with
    | [] => .error (.here .endInValue [])
    | c :: rest =>
      match c with
      | 'n' => (literal "ull".toList rest).map fun rest => (null, rest)
      | 't' => (literal "rue".toList rest).map fun rest => (bool true, rest)
      | 'f' => (literal "alse".toList rest).map fun rest => (bool false, rest)
      | '"' => (string rest).map fun (s, rest) => (str s, rest)
      | '[' =>
        match depth with
        | 0 => .error (.here .tooDeep (c :: rest))
        | depth + 1 => (firstItem fuel depth rest).map fun (items, rest) => (arr items, rest)
      | '\x7b' =>
        match depth with
        | 0 => .error (.here .tooDeep (c :: rest))
        | depth + 1 =>
          match afterNumeralName? rest with
          | some rest => heldNumber rest
          | none =>
            (firstMember fuel depth rest).map fun (members, rest) => (obj (collect members), rest)
      | c =>
        if c = '-' ∨ c.isDigit then
          (number (c :: rest)).map fun (digits, rest) => (num (String.ofList digits), rest)
        else .error (.here .expectedValue (c :: rest))
termination_by structural fuel

/-- Reads the items of an array after its opening bracket. -/
def firstItem (fuel depth : Nat) (cs : List Char) : Read (List Json) :=
  match fuel with
  | 0 => .error (.here .endInArray cs)
  | fuel + 1 =>
    match skipSpace cs with
    | [] => .error (.here .endInArray [])
    | ']' :: rest => .ok ([], rest)
    | cs =>
      match value fuel depth cs with
      | .error fault => .error fault
      | .ok (item, rest) =>
        (nextItem fuel depth rest).map fun (items, rest) => (item :: items, rest)
termination_by structural fuel

/-- Reads the items of an array after one of them. -/
def nextItem (fuel depth : Nat) (cs : List Char) : Read (List Json) :=
  match fuel with
  | 0 => .error (.here .endInArray cs)
  | fuel + 1 =>
    match skipSpace cs with
    | [] => .error (.here .endInArray [])
    | ']' :: rest => .ok ([], rest)
    | ',' :: rest =>
      match skipSpace rest with
      | [] => .error (.here .endInValue [])
      | ']' :: rest => .error (.here .trailingComma (']' :: rest))
      | cs =>
        match value fuel depth cs with
        | .error fault => .error fault
        | .ok (item, rest) =>
          (nextItem fuel depth rest).map fun (items, rest) => (item :: items, rest)
    | cs => .error (.here .expectedCommaOrBracket cs)
termination_by structural fuel

/-- Reads the members of an object after its opening brace.  The list is in the order of the text
and may repeat a name. -/
def firstMember (fuel depth : Nat) (cs : List Char) : Read (List (String × Json)) :=
  match fuel with
  | 0 => .error (.here .endInObject cs)
  | fuel + 1 =>
    match skipSpace cs with
    | [] => .error (.here .endInObject [])
    | '\x7d' :: rest => .ok ([], rest)
    | '"' :: rest => member fuel depth rest
    | cs => .error (.here .expectedName cs)
termination_by structural fuel

/-- Reads the members of an object after one of them. -/
def nextMember (fuel depth : Nat) (cs : List Char) : Read (List (String × Json)) :=
  match fuel with
  | 0 => .error (.here .endInObject cs)
  | fuel + 1 =>
    match skipSpace cs with
    | [] => .error (.here .endInObject [])
    | '\x7d' :: rest => .ok ([], rest)
    | ',' :: rest =>
      match skipSpace rest with
      | [] => .error (.here .endInValue [])
      | '"' :: rest => member fuel depth rest
      | '\x7d' :: rest => .error (.here .trailingComma ('\x7d' :: rest))
      | cs => .error (.here .expectedName cs)
    | cs => .error (.here .expectedCommaOrBrace cs)
termination_by structural fuel

/-- Reads a member after the quote that opens its name, and the members after it. -/
def member (fuel depth : Nat) (cs : List Char) : Read (List (String × Json)) :=
  match fuel with
  | 0 => .error (.here .endInObject cs)
  | fuel + 1 =>
    match string cs with
    | .error fault => .error fault
    | .ok (name, rest) =>
      match colon rest with
      | .error fault => .error fault
      | .ok rest =>
        match value fuel depth rest with
        | .error fault => .error fault
        | .ok (v, rest) =>
          (nextMember fuel depth rest).map fun (members, rest) => ((name, v) :: members, rest)
termination_by structural fuel

end

/-! ## Documents -/

/-- Reads a whole text as one document, with white space around it. -/
def document (cs : List Char) : Except Fault Json :=
  match value (2 * cs.length + 2) maxDepth cs with
  | .error fault => .error fault
  | .ok (v, rest) =>
    match skipSpace rest with
    | [] => .ok v
    | rest => .error (.here .trailingText rest)

/-- The document that a text holds. -/
def parse (text : String) : Except ReadError Json :=
  match document text.toList with
  | .ok v => .ok v
  | .error fault => .error (fault.locate text.toList)

/-- The members of the object that a text holds as a whole, with white space around it. -/
def members? (text : String) : Option (List (String × Json)) :=
  match skipSpace text.toList with
  | '\x7b' :: rest =>
    match firstMember (2 * text.length + 2) (maxDepth - 1) rest with
    | .ok (members, rest) => if (skipSpace rest).isEmpty then some (collect members) else none
    | .error _ => none
  | _ => none

end CardGate.Json
