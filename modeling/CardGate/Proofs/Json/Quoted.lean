import CardGate.Json.Printer
import CardGate.Json.Reader
import CardGate.Proofs.Json.Number

/-!
# Strings are read back

The printer writes a string character by character, most of them as they are, the others behind a
backslash.  `stringFrom_escaped` reads one such character back, and `string_stringChars` the
whole string with its quotes.
-/

namespace CardGate.Json

theorem hexDigit?_hexDigit {n : Nat} (h : n < 16) :
    Numeral.hexDigit? (Numeral.hexDigit n) = some n := by
  decide +revert

/-- The characters that an escape takes are passed over. -/
theorem stringFrom_append (taken rest : List Char) :
    stringFrom taken.length (taken ++ rest) = stringFrom 0 rest := by
  induction taken with
  | nil => rfl
  | cons c taken ih =>
    rw [List.length_cons, List.cons_append, stringFrom]
    exact ih

/-- A character behind a backslash is read as what it stands for. -/
theorem stringFrom_backslash {c : Char} (taken : List Char) {rest : List Char}
    (h : escape (taken ++ rest) = .ok (c, taken.length)) :
    stringFrom 0 ('\\' :: (taken ++ rest)) =
      (stringFrom 0 rest).map fun (s, rest) => (c :: s, rest) := by
  rw [stringFrom]
  simp only [show ('\\' = '"') = False from by decide, if_false, if_true, h, stringFrom_append]

/-- The number of a control below the space, by its four digits. -/
theorem natural?_control {c : Char} (h : c < ' ') :
    Numeral.natural? 16 Numeral.hexDigit?
      ['0', '0', Numeral.hexDigit (c.toNat / 16), Numeral.hexDigit (c.toNat % 16)] =
        some c.toNat := by
  have hc : c.toNat < 32 := h
  have hhigh := hexDigit?_hexDigit (n := c.toNat / 16) (by omega)
  have hlow := hexDigit?_hexDigit (n := c.toNat % 16) (by omega)
  have hzero : Numeral.hexDigit? '0' = some 0 := by decide
  simp only [Numeral.natural?, List.isEmpty_cons, Bool.false_eq_true, if_false, Numeral.digits?,
    hzero, hhigh, hlow]
  rw [Option.some.injEq]
  omega

/-- A control below the space is written with its number, which is read back. -/
theorem escape_control {c : Char} (h : c < ' ') (rest : List Char) :
    escape (['u', '0', '0', Numeral.hexDigit (c.toNat / 16), Numeral.hexDigit (c.toNat % 16)]
      ++ rest) = .ok (c, 5) := by
  have hc : c.toNat < 32 := h
  simp only [List.cons_append, List.nil_append, escape, hexQuad, natural?_control h]
  rw [if_neg (by omega), if_neg (by omega), Char.ofNat_toNat]

/-- A character is read back from the way it is written. -/
theorem stringFrom_escaped (c : Char) (rest : List Char) :
    stringFrom 0 (escaped c ++ rest) =
      (stringFrom 0 rest).map fun (s, rest) => (c :: s, rest) := by
  unfold escaped
  split
  · exact stringFrom_backslash ['"'] rfl
  · exact stringFrom_backslash ['\\'] rfl
  · exact stringFrom_backslash ['b'] rfl
  · exact stringFrom_backslash ['f'] rfl
  · exact stringFrom_backslash ['n'] rfl
  · exact stringFrom_backslash ['r'] rfl
  · exact stringFrom_backslash ['t'] rfl
  · next hquote hbackslash _ _ _ _ _ =>
    split
    · next hcontrol => exact stringFrom_backslash _ (escape_control hcontrol rest)
    · next hplain =>
      rw [List.singleton_append, stringFrom]
      simp only [if_neg (show ¬c = '"' from hquote), if_neg (show ¬c = '\\' from hbackslash),
        if_neg hplain]

theorem stringFrom_flatMap_escaped (s rest : List Char) :
    stringFrom 0 (s.flatMap escaped ++ '"' :: rest) = .ok (s, rest) := by
  induction s with
  | nil => rfl
  | cons c s ih =>
    rw [List.flatMap_cons, List.append_assoc, stringFrom_escaped, ih]
    rfl

/-- A string is read back after its opening quote. -/
theorem string_stringChars (s : String) (rest : List Char) :
    ∃ tail, stringChars s ++ rest = '"' :: tail ∧ string tail = .ok (s, rest) := by
  refine ⟨s.toList.flatMap escaped ++ '"' :: rest, by simp [stringChars], ?_⟩
  rw [string, stringFrom_flatMap_escaped]
  simp [Except.map]

end CardGate.Json
