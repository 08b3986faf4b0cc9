import CardGate.Hygiene.Injection

/-!
# Cleaning text

A value that is handed on is first made harmless: control characters are dropped, the five
characters that mean something in HTML are written as entities, what is left of script fragments
is cut out, and blanks at both ends are trimmed.
-/

namespace CardGate.Hygiene

/-- A character as it is written in HTML text. -/
def entity (c : Char) : List Char :=
  match c with
  | '&' => "&amp;".toList
  | '<' => "&lt;".toList
  | '>' => "&gt;".toList
  | '"' => "&#34;".toList
  | '\'' => "&#39;".toList
  | c => [c]

/-- A text as it is written in HTML. -/
def escapeHtml (cs : List Char) : List Char :=
  cs.flatMap entity

/-- Whether a character survives cleaning: no control but tab and the two line ends. -/
def isKept (c : Char) : Bool :=
  ' ' ≤ c || c == '\t' || c == '\n' || c == '\r'

/-- Cuts the script fragments out of a text, one kind after the other. -/
def cutScripts (cs : List Char) : List Char :=
  scriptFragments.foldl (fun text fragment => fragment.deleteAll text) cs

/-- A text made harmless. -/
def clean (cs : List Char) : List Char :=
  Text.trim (cutScripts (escapeHtml (cs.filter isKept)))

end CardGate.Hygiene
