import CardGate.Text.Blank
import CardGate.Text.Numeral
import Mathlib.Data.List.Forall2

/-!
# Reading numbers back

A number is read back from the digits that are written for it, digit by digit and from the most
significant one on.  This is said once for all radices and ways to write a digit, and then for the
two that are in use: capital hexadecimal and decimal.
-/

namespace CardGate.Numeral

theorem digits?_append (radix : Nat) (digit? : Char → Option Nat) (acc : Nat)
    (cs more : List Char) :
    digits? radix digit? acc (cs ++ more) =
      (digits? radix digit? acc cs).bind fun acc => digits? radix digit? acc more := by
  induction cs generalizing acc with
  | nil => rfl
  | cons c cs ih =>
    rw [List.cons_append, digits?, digits?]
    cases digit? c with
    | none => rfl
    | some d => exact ih (acc * radix + d)

/-! ## Any radix -/

section Radix

variable {radix : Nat} {digit? : Char → Option Nat} {written : Char → Char}

/-- The digits of a number are read as that number if every digit is. -/
theorem digits?_toDigits (hradix : 1 < radix)
    (hdigit : ∀ d < radix, digit? (written (Nat.digitChar d)) = some d) (n : Nat) :
    digits? radix digit? 0 ((Nat.toDigits radix n).map written) = some n := by
  induction n using Nat.strongRecOn with
  | ind n ih =>
    by_cases h : n < radix
    · rw [Nat.toDigits_of_lt_base h, List.map_singleton, digits?, hdigit n h]
      dsimp only
      rw [digits?, Nat.zero_mul, Nat.zero_add]
    · have hle : radix ≤ n := Nat.not_lt.1 h
      have hpart : n / radix < n := Nat.div_lt_self (by omega) hradix
      have hlast := hdigit (n % radix) (Nat.mod_lt n (by omega))
      rw [Nat.toDigits_of_base_le hradix hle, List.map_append, digits?_append, ih _ hpart,
        Option.bind_some, List.map_singleton, digits?, hlast]
      dsimp only
      rw [digits?, Nat.div_add_mod']

/-- Whether a row of digits, the most significant one first, writes a number. -/
def IsNumeral (radix : Nat) (digit? : Char → Option Nat) (digits : List Char) (n : Nat) : Prop :=
  digits ≠ [] ∧ ∃ values, List.Forall₂ (fun c v => digit? c = some v) digits values ∧
    values.foldl (fun n v => n * radix + v) 0 = n

theorem IsNumeral.exists_of_mem {digits : List Char} {n : Nat}
    (h : IsNumeral radix digit? digits n) {c : Char} (hc : c ∈ digits) :
    ∃ v, digit? c = some v := by
  obtain ⟨-, values, hvalues, -⟩ := h
  induction hvalues with
  | nil => exact absurd hc List.not_mem_nil
  | cons hv hvalues ih =>
    rcases List.mem_cons.1 hc with rfl | hc
    · exact ⟨_, hv⟩
    · exact ih hc

theorem digits?_eq_some_iff {acc n : Nat} {cs : List Char} :
    digits? radix digit? acc cs = some n ↔
      ∃ values, List.Forall₂ (fun c v => digit? c = some v) cs values ∧
        values.foldl (fun n v => n * radix + v) acc = n := by
  induction cs generalizing acc with
  | nil =>
    rw [digits?, Option.some_inj]
    constructor
    · intro h
      exact ⟨[], .nil, h⟩
    · intro h
      obtain ⟨values, hvalues, hn⟩ := h
      cases hvalues
      exact hn
  | cons c cs ih =>
    rw [digits?]
    constructor
    · intro h
      split at h
      · next v hv =>
        obtain ⟨values, hvalues, hn⟩ := ih.1 h
        exact ⟨v :: values, .cons hv hvalues, hn⟩
      · cases h
    · intro h
      obtain ⟨values, hvalues, hn⟩ := h
      cases hvalues with
      | cons hv hvalues =>
        rw [hv]
        exact ih.2 ⟨_, hvalues, hn⟩

theorem natural?_eq_some_iff {n : Nat} {cs : List Char} :
    natural? radix digit? cs = some n ↔ IsNumeral radix digit? cs n := by
  rw [natural?, IsNumeral, ← digits?_eq_some_iff]
  split
  · next h => exact iff_of_false nofun fun hn => hn.1 (List.isEmpty_iff.1 h)
  · next h => exact (and_iff_right (mt List.isEmpty_iff.2 h)).symm

/-- What is read behind an optional plus sign, if that is no digit. -/
theorem natural?_afterPlus_iff (hplus : digit? '+' = none) {n : Nat} {cs : List Char} :
    natural? radix digit? (afterPlus cs) = some n ↔
      ∃ plus digits, cs = plus ++ digits ∧ (plus = [] ∨ plus = ['+']) ∧
        IsNumeral radix digit? digits n := by
  rw [natural?_eq_some_iff]
  constructor
  · intro h
    unfold afterPlus at h
    split at h
    · next rest => exact ⟨['+'], rest, rfl, Or.inr rfl, h⟩
    · exact ⟨[], cs, rfl, Or.inl rfl, h⟩
  · intro h
    obtain ⟨plus, digits, rfl, rfl | rfl, hdigits⟩ := h
    · obtain ⟨hne, values, hvalues, -⟩ := id hdigits
      cases hvalues with
      | nil => exact absurd rfl hne
      | @cons c v digits values hv hvalues =>
        rw [List.nil_append, afterPlus]
        · exact hdigits
        · intro rest heq
          cases heq
          rw [hplus] at hv
          cases hv
    · exact hdigits

/-- What holds of every digit holds of every character of a number. -/
theorem forall_mem_toDigits (hradix : 1 < radix) {p : Char → Prop}
    (h : ∀ d < radix, p (Nat.digitChar d)) (n : Nat) : ∀ c ∈ Nat.toDigits radix n, p c := by
  induction n using Nat.strongRecOn with
  | ind n ih =>
    intro c hc
    by_cases hn : n < radix
    · rw [Nat.toDigits_of_lt_base hn, List.mem_singleton] at hc
      exact hc ▸ h n hn
    · have hle : radix ≤ n := Nat.not_lt.1 hn
      rw [Nat.toDigits_of_base_le hradix hle, List.mem_append, List.mem_singleton] at hc
      rcases hc with hc | rfl
      · exact ih (n / radix) (Nat.div_lt_self (by omega) hradix) c hc
      · exact h (n % radix) (Nat.mod_lt n (by omega))

/-- The front of a number that is not zero is a number that is not zero, and no larger. -/
theorem exists_toDigits_of_prefix (hradix : 1 < radix) {n : Nat} (hn : 0 < n)
    {front : List Char} (hfront : front <+: Nat.toDigits radix n) (hne : front ≠ []) :
    ∃ m, 0 < m ∧ m ≤ n ∧ front = Nat.toDigits radix m := by
  induction n using Nat.strongRecOn with
  | ind n ih =>
    by_cases h : n < radix
    · rw [Nat.toDigits_of_lt_base h] at hfront
      refine ⟨n, hn, Nat.le_refl n, ?_⟩
      rw [Nat.toDigits_of_lt_base h]
      exact hfront.eq_of_length_le (List.length_pos_iff.2 hne)
    · have hle : radix ≤ n := Nat.not_lt.1 h
      have hwhole := Nat.toDigits_of_base_le hradix hle
      rw [hwhole, List.prefix_concat_iff] at hfront
      rcases hfront with hfront | hfront
      · exact ⟨n, hn, Nat.le_refl n, hfront.trans hwhole.symm⟩
      · have hless : n / radix < n := Nat.div_lt_self hn hradix
        obtain ⟨m, hm, hmn, hdigits⟩ := ih (n / radix) hless (Nat.div_pos hle (by omega)) hfront
        exact ⟨m, hm, by omega, hdigits⟩

/-- A number below a bound is read back from digits none of which is a plus sign. -/
theorem filter_natural?_toDigits (hradix : 1 < radix)
    (hdigit : ∀ d < radix, digit? (written (Nat.digitChar d)) = some d)
    (hplus : ∀ d < radix, written (Nat.digitChar d) ≠ '+') {bound n : Nat} (h : n < bound) :
    (natural? radix digit? (afterPlus ((Nat.toDigits radix n).map written))).filter (· < bound) =
      some n := by
  have hne : (Nat.toDigits radix n).map written ≠ [] := by
    rw [ne_eq, List.map_eq_nil_iff]
    exact Nat.toDigits_ne_nil
  have hnone : ∀ digit ∈ Nat.toDigits radix n, written digit ≠ '+' :=
    forall_mem_toDigits hradix hplus n
  have hafter :
      afterPlus ((Nat.toDigits radix n).map written) = (Nat.toDigits radix n).map written := by
    cases hcs : (Nat.toDigits radix n).map written with
    | nil => rfl
    | cons c cs =>
      have hmem : c ∈ (Nat.toDigits radix n).map written := hcs ▸ List.mem_cons_self
      obtain ⟨digit, hdigits, hwritten⟩ := List.mem_map.1 hmem
      rw [afterPlus]
      rintro _ heq
      cases heq
      exact hnone digit hdigits hwritten
  rw [hafter, natural?, List.isEmpty_eq_false_iff.2 hne, if_neg Bool.false_ne_true,
    digits?_toDigits hradix hdigit, Option.filter_some, if_pos (decide_eq_true h)]

end Radix

/-! ## Hexadecimal -/

theorem hexDigit?_digitChar : ∀ d < 16, hexDigit? (Nat.digitChar d).toUpper = some d := by
  decide

theorem toList_hexCapital (n : Nat) :
    (hexCapital n).toList = (Nat.toDigits 16 n).map Char.toUpper := by
  rw [hexCapital, String.toList_ofList]

theorem forall_mem_hexCapital {p : Char → Prop} (h : ∀ d < 16, p (Nat.digitChar d).toUpper)
    (n : Nat) : ∀ c ∈ (hexCapital n).toList, p c := by
  rw [toList_hexCapital]
  exact List.forall_mem_map.2 (forall_mem_toDigits (by decide) h n)

/-- The front of a number that is not zero is a number that is not zero, and no larger. -/
theorem exists_hexCapital_of_prefix {n : Nat} (hn : 0 < n) {front : List Char}
    (hfront : front <+: (hexCapital n).toList) (hne : front ≠ []) :
    ∃ m, 0 < m ∧ m ≤ n ∧ front = (hexCapital m).toList := by
  rw [toList_hexCapital, List.prefix_map_iff] at hfront
  obtain ⟨digits, hdigits, rfl⟩ := hfront
  have hdigitsNe : digits ≠ [] := fun hnil => hne (by rw [hnil, List.map_nil])
  obtain ⟨m, hm, hmn, rfl⟩ := exists_toDigits_of_prefix (by decide) hn hdigits hdigitsNe
  exact ⟨m, hm, hmn, (toList_hexCapital m).symm⟩

/-- A number below the bound is read back. -/
theorem hexBelow?_hexCapital {bound n : Nat} (h : n < bound) :
    hexBelow? bound (hexCapital n).toList = some n := by
  have hplus : ∀ d < 16, (Nat.digitChar d).toUpper ≠ '+' := by decide
  rw [hexBelow?, toList_hexCapital]
  exact filter_natural?_toDigits (by decide) hexDigit?_digitChar hplus h

theorem toNat_lt_of_hexDigit? {c : Char} {v : Nat} (h : hexDigit? c = some v) : c.toNat < 128 := by
  have hle (a b : Char) : a ≤ b ↔ a.toNat ≤ b.toNat := Iff.rfl
  unfold hexDigit? at h
  split at h
  · next hdigit =>
    simp only [Char.isDigit, Bool.and_eq_true, decide_eq_true_eq] at hdigit
    exact Nat.lt_of_le_of_lt hdigit.2 (by decide)
  · split at h
    · next hsmall =>
      simp only [Bool.and_eq_true, decide_eq_true_eq] at hsmall
      exact Nat.lt_of_le_of_lt hsmall.2 (by decide)
    · split at h
      · next hcapital =>
        simp only [Bool.and_eq_true, decide_eq_true_eq] at hcapital
        exact Nat.lt_of_le_of_lt hcapital.2 (by decide)
      · cases h

/-- What is read as a hexadecimal number: digits, perhaps behind a plus sign, of a number below the
bound. -/
theorem hexBelow?_eq_some_iff {bound n : Nat} {cs : List Char} :
    hexBelow? bound cs = some n ↔
      n < bound ∧ ∃ plus digits, cs = plus ++ digits ∧ (plus = [] ∨ plus = ['+']) ∧
        IsNumeral 16 hexDigit? digits n := by
  rw [hexBelow?, Option.filter_eq_some_iff, natural?_afterPlus_iff rfl, decide_eq_true_eq, and_comm]

/-! ## Decimal -/

theorem toList_toString (n : Nat) : (toString n).toList = Nat.toDigits 10 n := by
  rw [Nat.toString_eq_ofList_toDigits, String.toList_ofList]

theorem forall_mem_toString {p : Char → Prop} (h : ∀ d < 10, p (Nat.digitChar d)) (n : Nat) :
    ∀ c ∈ (toString n).toList, p c := by
  rw [toList_toString]
  exact forall_mem_toDigits (by decide) h n

theorem length_toString_le {n : Nat} (h : n < sizeBound) : (toString n).toList.length ≤ 20 := by
  rw [toList_toString, Nat.length_toDigits_le_iff (by decide) (by decide)]
  exact Nat.lt_trans h (by decide)

/-- A decimal number below the bound is read back. -/
theorem decimalBelow?_toString {bound n : Nat} (h : n < bound) :
    decimalBelow? bound (toString n).toList = some n := by
  have hdigit : ∀ d < 10, decimalDigit? (id (Nat.digitChar d)) = some d := by decide
  have hplus : ∀ d < 10, id (Nat.digitChar d) ≠ '+' := by decide
  have hread := filter_natural?_toDigits (by decide) hdigit hplus h
  rw [List.map_id] at hread
  rw [decimalBelow?, toList_toString, hread]

/-- Whether a text writes a decimal number, perhaps behind a plus sign. -/
def IsDecimal (cs : List Char) (n : Nat) : Prop :=
  ∃ plus digits, cs = plus ++ digits ∧ (plus = [] ∨ plus = ['+']) ∧
    IsNumeral 10 decimalDigit? digits n

theorem decimalBelow?_eq_some_iff {bound n : Nat} {cs : List Char} :
    decimalBelow? bound cs = some n ↔ n < bound ∧ IsDecimal cs n := by
  rw [decimalBelow?, Option.filter_eq_some_iff, natural?_afterPlus_iff rfl, decide_eq_true_eq,
    and_comm, IsDecimal]

end CardGate.Numeral
