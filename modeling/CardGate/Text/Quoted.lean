import CardGate.Text.Concealed

/-!
# Quoted lines

A message that complains about a line shows it between double quotes.  A quote and a backslash
are escaped, the usual controls have their short escapes, and a concealed character is shown by
its code point, as `\u{200b}` is for the zero-width space.  Everything else, the apostrophe
included, stands for itself.
-/

namespace CardGate.Text

/-- A character as it stands between the quotes. -/
def quotedChar (c : Char) : List Char :=
  match c with
  | '"' => ['\\', '"']
  | '\\' => ['\\', '\\']
  | '\x00' => ['\\', '0']
  | '\t' => ['\\', 't']
  | '\r' => ['\\', 'r']
  | '\n' => ['\\', 'n']
  | c =>
    if isConcealed c then ['\\', 'u', '\x7b'] ++ Nat.toDigits 16 c.toNat ++ ['\x7d']
    else [c]

/-- A line between double quotes, with everything escaped that could mislead a reader. -/
def quoted (line : String) : String :=
  String.ofList ('"' :: line.toList.flatMap quotedChar ++ ['"'])

end CardGate.Text
