/-!
# Blanks

Lines and settings are trimmed of blanks and cut into words at them.  A blank is any character
with the white-space property, so the no-break space and the line separator count, while the
zero-width space and the file separators do not.

`fields` cuts a text at every separator and keeps empty pieces; `words` cuts at runs of blanks and
keeps none.
-/

namespace CardGate.Text

/-- The blanks beyond ASCII. -/
def wideBlanks : List Char :=
  ['\u0085', '\u00A0', '\u1680', '\u2000', '\u2001', '\u2002', '\u2003', '\u2004', '\u2005',
   '\u2006', '\u2007', '\u2008', '\u2009', '\u200A', '\u2028', '\u2029', '\u202F', '\u205F',
   '\u3000']

/-- Whether a character is white space: a space, one of the controls from tab to carriage return,
or a wide blank. -/
def isBlank (c : Char) : Bool :=
  c == ' ' || ('\t' ≤ c && c ≤ '\r') || wideBlanks.contains c

/-! ## Trimming -/

/-- Drops the blanks at the start of a text. -/
def trimLeft (cs : List Char) : List Char :=
  cs.dropWhile isBlank

/-- Drops the blanks at the end of a text. -/
def trimRight (cs : List Char) : List Char :=
  (cs.reverse.dropWhile isBlank).reverse

/-- Drops the blanks at both ends of a text. -/
def trim (cs : List Char) : List Char :=
  trimRight (trimLeft cs)

/-- The same on strings. -/
def trimmed (s : String) : String :=
  String.ofList (trim s.toList)

/-! ## Cutting -/

/-- The pieces of a text between its separators, empty ones included. -/
def fields (isSeparator : Char → Bool) : List Char → List (List Char)
  | [] => [[]]
  | c :: rest =>
    if isSeparator c then [] :: fields isSeparator rest
    else match fields isSeparator rest with
      | [] => [[c]]
      | field :: more => (c :: field) :: more

/-- The words of a text: its maximal runs of characters that are not blank. -/
def words (cs : List Char) : List (List Char) :=
  (fields isBlank cs).filter (· ≠ [])

/-- The parts of a text before and after the first occurrence of a character. -/
def splitAtFirst? (mark : Char) (cs : List Char) : Option (List Char × List Char) :=
  match cs.dropWhile (· ≠ mark) with
  | [] => none
  | _ :: rest => some (cs.takeWhile (· ≠ mark), rest)

end CardGate.Text
