import CardGate.Pattern.Search
import CardGate.Text.Lowercase

/-!
# Dangerous fragments

Values that reach the management interface are searched for fragments of SQL statements and of
scripts.  Both searches disregard case, and for SQL a text is put in lower case first.
-/

namespace CardGate.Hygiene

open Pattern

/-- Blanks, at least one. -/
def someBlanks : Pattern :=
  oneOrMore Text.isBlank

/-- Two words with blanks between them. -/
def wordPair (first second : String) : Pattern :=
  row [anyCase first, someBlanks, anyCase second]

/-- Fragments that betray an SQL injection. -/
def sqlFragments : List Pattern :=
  [wordPair "union" "select",
   wordPair "insert" "into",
   wordPair "delete" "from",
   wordPair "update" "set",
   wordPair "drop" "table",
   wordPair "create" "table",
   row [anyCase "exec", blanks, char '('],
   row [anyCase "execute", blanks, char '('],
   anyCase "sp_executesql",
   row [anyCase "script", blanks, char '>'],
   anyCase "javascript:",
   anyCase "vbscript:",
   row [anyCase "onload", blanks, char '='],
   row [anyCase "onerror", blanks, char '='],
   row [char '1', blanks, char '=', blanks, char '1'],
   row [char '1', blanks, anyCase "or", blanks, char '1']]

/-- Words that betray a statement when they occur in this order within one line. -/
def sqlWordRows : List (List String) :=
  [["union", "select"], ["select", "from", "where"]]

/-- Fragments that betray a script. -/
def scriptFragments : List Pattern :=
  [row [anyCase "<script", many (· != '>'), char '>', few notNewline, anyCase "</script>"],
   anyCase "javascript:",
   anyCase "vbscript:",
   row [anyCase "on", oneOrMore Text.isWordChar, blanks, char '='],
   row [anyCase "<iframe", many (· != '>'), char '>']]

/-- Whether some line of a text holds the words of a row one after the other. -/
def hasWordRow (words : List String) (cs : List Char) : Bool :=
  (Text.fields (· == '\n') cs).any fun line => inOrder (words.map anyCase) (Place.start line)

/-- Whether a text, put in lower case, holds an SQL fragment. -/
def hasSql (cs : List Char) : Bool :=
  let lowered := Text.lowercase cs
  sqlFragments.any (·.matchesIn lowered) || sqlWordRows.any (hasWordRow · lowered)

/-- Whether a text holds a script fragment. -/
def hasScript (cs : List Char) : Bool :=
  scriptFragments.any (·.matchesIn cs)

end CardGate.Hygiene
