/-!
# ASCII case

Header names, field names and settings are compared without regard to the case of the letters
A to Z.  Every other character stands for itself.
-/

namespace CardGate.Text

/-- The text with A to Z in lower case. -/
def lower (cs : List Char) : List Char :=
  cs.map Char.toLower

/-- The same on strings. -/
def lowered (s : String) : String :=
  String.ofList (lower s.toList)

/-- Whether two strings differ at most in the case of A to Z. -/
def sameName (a b : String) : Bool :=
  lower a.toList == lower b.toList

theorem sameName_iff {a b : String} : sameName a b ↔ lower a.toList = lower b.toList := by
  simp [sameName]

theorem sameName_of_same {a b : String} (h : sameName a b = true) (c : String) :
    sameName a c = sameName b c := by
  rw [sameName, sameName, sameName_iff.1 h]

/-- Whether one text occurs in another, at any place. -/
def occursIn (part : List Char) : List Char → Bool
  | [] => part.isEmpty
  | c :: rest => part.isPrefixOf (c :: rest) || occursIn part rest

theorem occursIn_iff {part cs : List Char} : occursIn part cs = true ↔ part <:+: cs := by
  induction cs with
  | nil => rw [occursIn, List.isEmpty_iff, List.infix_nil]
  | cons c rest ih =>
    rw [occursIn, Bool.or_eq_true, List.isPrefixOf_iff_prefix, ih, List.infix_cons_iff]

end CardGate.Text
