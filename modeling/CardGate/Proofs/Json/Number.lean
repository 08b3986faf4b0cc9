import CardGate.Json.Reader
import Mathlib.Data.List.TakeWhile

/-!
# Numbers are read back

The reader keeps the digits of a number and writes its exponent in one way.  `IsNumber` is the
grammar of what it keeps, built from the whole part, the decimals and the exponent.

* `isNumber_of_number`: what `number` gives is such a number.
* `number_append`: such a number is read back as itself, whatever comes after it, provided that
  the text does not go on with a character that could belong to the number.
-/

namespace CardGate.Json

/-- A mapped reader succeeds exactly when the reader does. -/
theorem map_eq_ok {ε α β : Type} {read : Except ε α} {f : α → β} {b : β} :
    read.map f = .ok b ↔ ∃ a, read = .ok a ∧ f a = b := by
  cases read with
  | error e => simp [Except.map]
  | ok a => simp [Except.map]

/-! ## The grammar -/

/-- At least one digit. -/
def IsDigits (cs : List Char) : Prop :=
  cs ≠ [] ∧ ∀ c ∈ cs, c.isDigit = true

/-- Digits without a leading zero. -/
def IsWhole (cs : List Char) : Prop :=
  IsDigits cs ∧ ∀ c rest, cs ≠ '0' :: c :: rest

/-- Nothing, or a point and digits. -/
inductive IsFraction : List Char → Prop where
  | none : IsFraction []
  | point {cs : List Char} (digits : IsDigits cs) : IsFraction ('.' :: cs)

/-- Nothing, or an exponent with its sign. -/
inductive IsPower : List Char → Prop where
  | none : IsPower []
  | exponent {sign : Char} {cs : List Char} (signed : sign = '+' ∨ sign = '-')
      (digits : IsDigits cs) : IsPower ('e' :: sign :: cs)

/-- Nothing, or an exponent in any form. -/
inductive IsExponent : List Char → Prop where
  | none : IsExponent []
  | power {letter : Char} {sign cs : List Char} (mark : letter = 'e' ∨ letter = 'E')
      (signed : sign = [] ∨ sign = ['+'] ∨ sign = ['-']) (digits : IsDigits cs) :
      IsExponent (letter :: (sign ++ cs))

/-- A number without its sign. -/
inductive IsUnsigned : List Char → Prop where
  | parts {whole fraction power : List Char} (hwhole : IsWhole whole)
      (hfraction : IsFraction fraction) (hpower : IsPower power) :
      IsUnsigned (whole ++ fraction ++ power)

/-- A number as the reader keeps it. -/
inductive IsNumber : List Char → Prop where
  | plain {cs : List Char} (unsigned : IsUnsigned cs) : IsNumber cs
  | minus {cs : List Char} (unsigned : IsUnsigned cs) : IsNumber ('-' :: cs)

/-- A number as it may be written. -/
inductive IsNumeral : List Char → Prop where
  | parts {sign whole fraction power : List Char} (signed : sign = [] ∨ sign = ['-'])
      (hwhole : IsWhole whole) (hfraction : IsFraction fraction) (hpower : IsExponent power) :
      IsNumeral (sign ++ (whole ++ fraction ++ power))

/-- Whether a character can stand in a number after its first digit. -/
def continuesNumber (c : Char) : Bool :=
  c.isDigit || c == '.' || c == 'e' || c == 'E'

/-- Whether a number ends before a text. -/
def EndsNumber (cs : List Char) : Prop :=
  ∀ c rest, cs = c :: rest → continuesNumber c = false

theorem EndsNumber.nil : EndsNumber [] := by
  rintro c rest ⟨⟩

theorem EndsNumber.cons {c : Char} {rest : List Char} (h : continuesNumber c = false) :
    EndsNumber (c :: rest) := by
  rintro _ _ ⟨⟩
  exact h

/-- Whether a text does not begin with a digit. -/
def NoDigit (cs : List Char) : Prop :=
  ∀ c rest, cs = c :: rest → c.isDigit = false

theorem EndsNumber.noDigit {cs : List Char} (h : EndsNumber cs) : NoDigit cs := by
  intro c rest hcs
  have hc := h c rest hcs
  simp only [continuesNumber, Bool.or_eq_false_iff] at hc
  exact hc.1.1.1

/-! ## Digits -/

theorem isDigits_of_someDigits {otherwise : Cause} {cs digits rest : List Char}
    (h : someDigits otherwise cs = .ok (digits, rest)) : IsDigits digits := by
  unfold someDigits at h
  split at h
  · cases h
  · next hne =>
    cases h
    refine ⟨hne, fun c hc => ?_⟩
    exact List.mem_takeWhile_imp hc

theorem someDigits_append {otherwise : Cause} {digits rest : List Char} (hdigits : IsDigits digits)
    (hrest : NoDigit rest) : someDigits otherwise (digits ++ rest) = .ok (digits, rest) := by
  have htake : (digits ++ rest).takeWhile Char.isDigit = digits := by
    rw [List.takeWhile_append_of_pos hdigits.2]
    cases rest with
    | nil => simp
    | cons c rest => simp [hrest c rest rfl]
  have hdrop : (digits ++ rest).dropWhile Char.isDigit = rest := by
    rw [List.dropWhile_append_of_pos hdigits.2]
    cases rest with
    | nil => simp
    | cons c rest => simp [hrest c rest rfl]
  unfold someDigits
  rw [htake, hdrop]
  split
  · exact absurd rfl hdigits.1
  · rfl

/-! ## Parts -/

theorem isWhole_of_wholePart {cs digits rest : List Char}
    (h : wholePart cs = .ok (digits, rest)) : IsWhole digits := by
  unfold wholePart at h
  split at h
  · cases h
  · next digits' rest' hdigits =>
    split at h
    · cases h
    · next hzero =>
      cases h
      exact ⟨isDigits_of_someDigits hdigits, fun c more heq => hzero c more heq⟩

theorem wholePart_append {digits rest : List Char} (hdigits : IsWhole digits)
    (hrest : NoDigit rest) : wholePart (digits ++ rest) = .ok (digits, rest) := by
  unfold wholePart
  rw [someDigits_append hdigits.1 hrest]
  simp only
  split
  · next c more => exact absurd rfl (hdigits.2 c more)
  · rfl

theorem isFraction_of_decimals {cs fraction rest : List Char}
    (h : decimals cs = .ok (fraction, rest)) : IsFraction fraction := by
  unfold decimals at h
  split at h
  · obtain ⟨⟨digits, rest'⟩, hdigits, heq⟩ := map_eq_ok.1 h
    cases heq
    exact .point (isDigits_of_someDigits hdigits)
  · cases h
    exact .none

theorem decimals_append {fraction rest : List Char} (hfraction : IsFraction fraction)
    (hrest : NoDigit rest) (hpoint : ∀ more, rest ≠ '.' :: more) :
    decimals (fraction ++ rest) = .ok (fraction, rest) := by
  cases hfraction with
  | none =>
    rw [List.nil_append]
    unfold decimals
    split
    · next more => exact absurd rfl (hpoint more)
    · rfl
  | point hdigits =>
    rw [List.cons_append, decimals, someDigits_append hdigits hrest]
    rfl

/-- The sign of an exponent is a plus or a minus. -/
theorem exponentSign_fst (cs : List Char) :
    (exponentSign cs).1 = '+' ∨ (exponentSign cs).1 = '-' := by
  unfold exponentSign
  split <;> simp

theorem isPower_of_exponent {cs power rest : List Char}
    (h : exponent cs = .ok (power, rest)) : IsPower power := by
  unfold exponent at h
  split at h
  · cases h
    exact .none
  · next c more =>
    split at h
    · obtain ⟨⟨digits, rest'⟩, hdigits, heq⟩ := map_eq_ok.1 h
      cases heq
      exact .exponent (exponentSign_fst more) (isDigits_of_someDigits hdigits)
    · cases h
      exact .none

theorem exponent_append {power rest : List Char} (hpower : IsPower power)
    (hrest : EndsNumber rest) : exponent (power ++ rest) = .ok (power, rest) := by
  cases hpower with
  | none =>
    rw [List.nil_append]
    cases rest with
    | nil => rfl
    | cons c more =>
      have hc := hrest c more rfl
      simp only [continuesNumber, Bool.or_eq_false_iff, beq_eq_false_iff_ne] at hc
      simp [exponent, hc.1.2, hc.2]
  | @exponent sign digits signed hdigits =>
    have hsign : exponentSign (sign :: (digits ++ rest)) = (sign, digits ++ rest) := by
      rcases signed with rfl | rfl <;> rfl
    simp [exponent, hsign, someDigits_append hdigits hrest.noDigit, Except.map]

/-! ## Numbers -/

theorem isUnsigned_of_unsignedNumber {cs digits rest : List Char}
    (h : unsignedNumber cs = .ok (digits, rest)) : IsUnsigned digits := by
  unfold unsignedNumber at h
  split at h
  · cases h
  · next whole cs' hwhole =>
    split at h
    · cases h
    · next fraction cs'' hfraction =>
      obtain ⟨⟨power, rest'⟩, hpower, heq⟩ := map_eq_ok.1 h
      cases heq
      exact .parts (isWhole_of_wholePart hwhole) (isFraction_of_decimals hfraction)
        (isPower_of_exponent hpower)

/-- What the reader takes for a number is one. -/
theorem isNumber_of_number {cs digits rest : List Char} (h : number cs = .ok (digits, rest)) :
    IsNumber digits := by
  unfold number at h
  split at h
  · obtain ⟨⟨digits', rest'⟩, hread, heq⟩ := map_eq_ok.1 h
    cases heq
    exact .minus (isUnsigned_of_unsignedNumber hread)
  · exact .plain (isUnsigned_of_unsignedNumber h)

theorem IsPower.isExponent {power : List Char} (h : IsPower power) : IsExponent power := by
  cases h with
  | none => exact .none
  | @exponent sign cs signed digits =>
    refine @IsExponent.power 'e' [sign] cs (Or.inl rfl) (Or.inr ?_) digits
    rcases signed with rfl | rfl
    · exact Or.inl rfl
    · exact Or.inr rfl

/-- An exponent and the text after a number go on neither with a digit nor with a point. -/
theorem IsExponent.append_cases {power rest : List Char} (hpower : IsExponent power)
    (hrest : EndsNumber rest) :
    ∀ c more, power ++ rest = c :: more → c.isDigit = false ∧ c ≠ '.' := by
  intro c more heq
  cases hpower with
  | none =>
    have hc := hrest c more heq
    simp only [continuesNumber, Bool.or_eq_false_iff, beq_eq_false_iff_ne] at hc
    exact ⟨hc.1.1.1, hc.1.1.2⟩
  | power mark =>
    cases heq
    rcases mark with rfl | rfl <;> decide

/-- The parts of a number are read one after the other, if none of them goes on into the next. -/
theorem unsignedNumber_parts {whole fraction after kept rest : List Char} (hwhole : IsWhole whole)
    (hfraction : IsFraction fraction) (hpower : exponent after = .ok (kept, rest))
    (hafter : ∀ c more, after = c :: more → c.isDigit = false ∧ c ≠ '.') :
    unsignedNumber (whole ++ fraction ++ after) = .ok (whole ++ fraction ++ kept, rest) := by
  have hdigit : NoDigit after := fun c more heq => (hafter c more heq).1
  have hpoint : ∀ more, after ≠ '.' :: more := fun more heq => (hafter '.' more heq).2 rfl
  have hfractionDigit : NoDigit (fraction ++ after) := by
    cases hfraction with
    | none => exact hdigit
    | point =>
      rintro _ _ ⟨⟩
      decide
  rw [List.append_assoc, unsignedNumber, wholePart_append hwhole hfractionDigit]
  simp only
  rw [decimals_append hfraction hdigit hpoint]
  simp only
  rw [hpower]
  rfl

theorem unsignedNumber_append {digits rest : List Char} (hdigits : IsUnsigned digits)
    (hrest : EndsNumber rest) : unsignedNumber (digits ++ rest) = .ok (digits, rest) := by
  rcases hdigits with @⟨whole, fraction, power, hwhole, hfraction, hpower⟩
  rw [List.append_assoc]
  exact unsignedNumber_parts hwhole hfraction (exponent_append hpower hrest)
    (hpower.isExponent.append_cases hrest)

/-- The whole part of a number begins with a digit. -/
theorem IsWhole.head {whole : List Char} (h : IsWhole whole) :
    ∃ c more, whole = c :: more ∧ c.isDigit = true := by
  obtain ⟨⟨hne, hall⟩, -⟩ := h
  cases whole with
  | nil => exact absurd rfl hne
  | cons c more => exact ⟨c, more, rfl, hall c List.mem_cons_self⟩

/-- An unsigned number begins with a digit. -/
theorem IsUnsigned.head {digits : List Char} (h : IsUnsigned digits) :
    ∃ c more, digits = c :: more ∧ c.isDigit = true := by
  rcases h with ⟨hwhole, _, _⟩
  obtain ⟨c, more, rfl, hc⟩ := hwhole.head
  exact ⟨c, _, rfl, hc⟩

/-- What begins with a digit is read as a number without a sign. -/
theorem number_of_digit {c : Char} (hc : c.isDigit = true) (cs : List Char) :
    number (c :: cs) = unsignedNumber (c :: cs) := by
  unfold number
  split
  · next heq =>
    cases heq
    simp at hc
  · rfl

/-- A number is read back as itself. -/
theorem number_append {digits rest : List Char} (hdigits : IsNumber digits)
    (hrest : EndsNumber rest) : number (digits ++ rest) = .ok (digits, rest) := by
  cases hdigits with
  | plain hunsigned =>
    obtain ⟨c, more, hhead, hc⟩ := hunsigned.head
    have hread := unsignedNumber_append hunsigned hrest
    rw [hhead, List.cons_append] at hread ⊢
    rw [number_of_digit hc, hread]
  | minus hunsigned =>
    rw [List.cons_append, number, unsignedNumber_append hunsigned hrest]
    rfl

theorem exponentSign_of_digits {cs : List Char} (h : IsDigits cs) (rest : List Char) :
    exponentSign (cs ++ rest) = ('+', cs ++ rest) := by
  obtain ⟨hne, hall⟩ := h
  obtain ⟨c, more, rfl⟩ := List.exists_cons_of_ne_nil hne
  have hc := hall c List.mem_cons_self
  unfold exponentSign
  split
  · next heq =>
    cases heq
    simp at hc
  · next heq =>
    cases heq
    simp at hc
  · rfl

theorem exists_exponent {power rest : List Char} (hpower : IsExponent power)
    (hrest : EndsNumber rest) : ∃ kept, exponent (power ++ rest) = .ok (kept, rest) := by
  cases hpower with
  | none => exact ⟨[], exponent_append .none hrest⟩
  | @power letter sign cs mark signed digits =>
    obtain ⟨kept, hkept⟩ : ∃ kept, exponentSign (sign ++ (cs ++ rest)) = (kept, cs ++ rest) := by
      rcases signed with rfl | rfl | rfl
      · exact ⟨'+', exponentSign_of_digits digits rest⟩
      · exact ⟨'+', rfl⟩
      · exact ⟨'-', rfl⟩
    refine ⟨'e' :: kept :: cs, ?_⟩
    rw [List.cons_append, List.append_assoc, exponent, if_pos mark, hkept]
    simp only [someDigits_append digits hrest.noDigit]
    rfl

/-- After a number in any form the reader stands where the number ends. -/
theorem exists_number {cs rest : List Char} (h : IsNumeral cs) (hrest : EndsNumber rest) :
    ∃ digits, number (cs ++ rest) = .ok (digits, rest) := by
  rcases h with @⟨sign, whole, fraction, power, signed, hwhole, hfraction, hpower⟩
  obtain ⟨kept, hkept⟩ := exists_exponent hpower hrest
  have hread := unsignedNumber_parts hwhole hfraction hkept (hpower.append_cases hrest)
  rcases signed with rfl | rfl
  · obtain ⟨c, more, rfl, hc⟩ := hwhole.head
    refine ⟨c :: more ++ fraction ++ kept, ?_⟩
    rw [List.nil_append, List.append_assoc, ← hread]
    exact number_of_digit hc _
  · refine ⟨'-' :: (whole ++ fraction ++ kept), ?_⟩
    rw [List.singleton_append, List.cons_append, List.append_assoc, number, hread]
    rfl

/-- A number in any form begins with a digit or a minus. -/
theorem IsNumeral.head {digits : List Char} (h : IsNumeral digits) :
    ∃ c more, digits = c :: more ∧ (c = '-' ∨ c.isDigit = true) := by
  rcases h with @⟨sign, whole, fraction, power, rfl | rfl, hwhole, -, -⟩
  · obtain ⟨c, more, rfl, hc⟩ := hwhole.head
    exact ⟨c, _, rfl, Or.inr hc⟩
  · exact ⟨'-', _, rfl, Or.inl rfl⟩

theorem IsNumber.isNumeral {digits : List Char} (h : IsNumber digits) : IsNumeral digits := by
  rcases h with ⟨⟨hwhole, hfraction, hpower⟩⟩ | ⟨⟨hwhole, hfraction, hpower⟩⟩
  · exact .parts (Or.inl rfl) hwhole hfraction hpower.isExponent
  · exact .parts (Or.inr rfl) hwhole hfraction hpower.isExponent

end CardGate.Json
