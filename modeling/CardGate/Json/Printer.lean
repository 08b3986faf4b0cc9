import CardGate.Json.Basic
import CardGate.Text.Numeral

/-!
# Writing JSON

The compact form has no blanks.  Strings escape the quote, the backslash and the controls below
the space; every other character stands for itself.
-/

namespace CardGate.Json

/-- A character as it stands in a JSON string. -/
def escaped (c : Char) : List Char :=
  match c with
  | '"' => ['\\', '"']
  | '\\' => ['\\', '\\']
  | '\x08' => ['\\', 'b']
  | '\x0c' => ['\\', 'f']
  | '\n' => ['\\', 'n']
  | '\r' => ['\\', 'r']
  | '\t' => ['\\', 't']
  | c =>
    if c < ' ' then ['\\', 'u', '0', '0', Numeral.hexDigit (c.toNat / 16),
      Numeral.hexDigit (c.toNat % 16)]
    else [c]

/-- A string with its quotes. -/
def stringChars (s : String) : List Char :=
  '"' :: s.toList.flatMap escaped ++ ['"']

mutual

/-- The compact form of a document. -/
def chars : Json → List Char
  | null => ['n', 'u', 'l', 'l']
  | bool true => ['t', 'r', 'u', 'e']
  | bool false => ['f', 'a', 'l', 's', 'e']
  | num digits => digits.toList
  | str s => stringChars s
  | arr items => '[' :: itemsChars items ++ [']']
  | obj members => '\x7b' :: membersChars members ++ ['\x7d']

/-- The items of an array with commas between them. -/
def itemsChars : List Json → List Char
  | [] => []
  | [item] => item.chars
  | item :: more => item.chars ++ ',' :: itemsChars more

/-- The members of an object with commas between them. -/
def membersChars : List (String × Json) → List Char
  | [] => []
  | [(name, value)] => stringChars name ++ ':' :: value.chars
  | (name, value) :: more => stringChars name ++ ':' :: value.chars ++ ',' :: membersChars more

end

/-- The compact form as a string. -/
def print (document : Json) : String :=
  String.ofList document.chars

end CardGate.Json
