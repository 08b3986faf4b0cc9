/-!
# Replacing a word

Every occurrence of a word in a text is replaced, from left to right.  Occurrences that overlap
the one before are passed over, and the replacement is not searched again.
-/

namespace CardGate.Text

/-- Replaces in a text of which the first `skip` characters belong to the last occurrence. -/
def replaceFrom (word replacement : List Char) (skip : Nat) : List Char → List Char
  | [] => []
  | c :: rest =>
    match skip with
    | skip + 1 => replaceFrom word replacement skip rest
    | 0 =>
      if word.isPrefixOf (c :: rest) then
        replacement ++ replaceFrom word replacement (word.length - 1) rest
      else c :: replaceFrom word replacement 0 rest

/-- The text with every occurrence of a word replaced.  The word is not empty. -/
def replaceWord (word replacement cs : List Char) : List Char :=
  replaceFrom word replacement 0 cs

end CardGate.Text
