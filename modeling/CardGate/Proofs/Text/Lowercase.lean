import CardGate.Text.Case
import CardGate.Text.Lowercase
import Mathlib.Data.List.Forall2

/-!
# Parts of a text in lower case

What is written for a part of a text hangs on the whole text only as to its sigmas, and not on the
case of the letters A to Z in the part.  So the part is found again in the text, `Alike` to what it
is on its own (`exists_alike_lowercase`).
-/

namespace CardGate.Text

/-- Whether two characters are the same, or both a small sigma, final or not. -/
def Alike (c d : Char) : Prop :=
  c = d ∨ c ∈ ['σ', 'ς'] ∧ d ∈ ['σ', 'ς']

theorem forall₂_alike_self (cs : List Char) : List.Forall₂ Alike cs cs :=
  List.forall₂_same.2 fun _ _ => Or.inl rfl

/-! ## One character -/

theorem toLower_cases (c : Char) : c.toLower = c ∨ c.toNat < 128 ∧ c.toLower.toNat < 128 := by
  unfold Char.toLower
  split
  · next h =>
    obtain ⟨-, hhigh⟩ := h
    have hnat : c.val.toNat ≤ 90 := UInt32.le_iff_toNat_le.1 hhigh
    refine Or.inr ⟨show c.val.toNat < 128 by omega, ?_⟩
    show (c.val + 32).toNat < 128
    rw [UInt32.toNat_add, show (32 : UInt32).toNat = 32 from rfl]
    omega
  · exact Or.inl rfl

/-- Characters that differ in case only are the same or both within ASCII. -/
theorem eq_or_lt_of_toLower_eq {c d : Char} (h : c.toLower = d.toLower) :
    c = d ∨ c.toNat < 128 ∧ d.toNat < 128 := by
  rcases toLower_cases c with hc | ⟨hc, hclow⟩
  · rcases toLower_cases d with hd | ⟨hd, hdlow⟩
    · exact Or.inl (hc.symm.trans (h.trans hd))
    · rw [← h, hc] at hdlow
      exact Or.inr ⟨hdlow, hd⟩
  · rcases toLower_cases d with hd | ⟨hd, hdlow⟩
    · rw [h, hd] at hclow
      exact Or.inr ⟨hc, hclow⟩
    · exact Or.inr ⟨hc, hd⟩

theorem smallBetween_of_lt {c : Char} (h : c.toNat < 128) (before after : List Char) :
    smallBetween before c after = [c.toLower] := by
  have hsigma : ¬ (c == 'Σ') = true := by
    intro heq
    rw [beq_iff_eq.1 heq] at h
    exact absurd h (by decide)
  rw [smallBetween, if_neg hsigma, small, if_pos h]

/-- What stands around a character only decides which small sigma is written for a sigma. -/
theorem alike_smallBetween (before after before' after' : List Char) (c : Char) :
    List.Forall₂ Alike (smallBetween before c after) (smallBetween before' c after') := by
  have hsigma (last : Bool) : ∃ d ∈ ['σ', 'ς'], (if last then ['ς'] else ['σ']) = [d] := by
    cases last
    · exact ⟨'σ', by simp, rfl⟩
    · exact ⟨'ς', by simp, rfl⟩
  unfold smallBetween
  split
  · obtain ⟨d, hd, heq⟩ := hsigma (goesOn before && !goesOn after)
    obtain ⟨d', hd', heq'⟩ := hsigma (goesOn before' && !goesOn after')
    rw [heq, heq']
    exact .cons (Or.inr ⟨hd, hd'⟩) .nil
  · exact forall₂_alike_self _

/-! ## Texts -/

/-- What is in front of a text is written in front of it. -/
theorem exists_lowercaseFrom_append (before front cs : List Char) :
    ∃ lowered before',
      lowercaseFrom before (front ++ cs) = lowered ++ lowercaseFrom before' cs := by
  induction front generalizing before with
  | nil => exact ⟨[], before, rfl⟩
  | cons c front ih =>
    obtain ⟨lowered, before', h⟩ := ih (c :: before)
    refine ⟨smallBetween before c (front ++ cs) ++ lowered, before', ?_⟩
    rw [List.cons_append, lowercaseFrom, h, List.append_assoc]

/-- A text that differs in the case of A to Z only, in front of another text, is written alike. -/
theorem exists_alike_lowercaseFrom {cs cs' : List Char} (h : lower cs' = lower cs)
    (before before' back : List Char) :
    ∃ lowered last, lowercaseFrom before' (cs' ++ back) = lowered ++ lowercaseFrom last back ∧
      List.Forall₂ Alike (lowercaseFrom before cs) lowered := by
  induction cs generalizing cs' before before' with
  | nil =>
    obtain rfl := List.map_eq_nil_iff.1 h
    exact ⟨[], before', rfl, .nil⟩
  | cons c cs ih =>
    cases cs' with
    | nil => cases h
    | cons c' cs' =>
      obtain ⟨hc, hcs⟩ := List.cons.inj h
      obtain ⟨lowered, last, hlowered, halike⟩ := ih hcs (c :: before) (c' :: before')
      refine ⟨smallBetween before' c' (cs' ++ back) ++ lowered, last, ?_, ?_⟩
      · rw [List.cons_append, lowercaseFrom, hlowered, List.append_assoc]
      · refine List.rel_append ?_ halike
        rcases eq_or_lt_of_toLower_eq hc with rfl | ⟨hlt', hlt⟩
        · exact alike_smallBetween before cs before' (cs' ++ back) c'
        · rw [smallBetween_of_lt hlt, smallBetween_of_lt hlt', show c'.toLower = c.toLower from hc]
          exact forall₂_alike_self _

/-- A part of a text, whatever the case of A to Z in it, is written alike within the text. -/
theorem exists_alike_lowercase {cs cs' : List Char} (h : lower cs' = lower cs)
    (front back : List Char) :
    ∃ lowered, lowered <:+: lowercase (front ++ cs' ++ back) ∧
      List.Forall₂ Alike (lowercase cs) lowered := by
  obtain ⟨before, first, hfront⟩ := exists_lowercaseFrom_append [] front (cs' ++ back)
  obtain ⟨lowered, last, hlowered, halike⟩ := exists_alike_lowercaseFrom h [] first back
  refine ⟨lowered, ⟨before, lowercaseFrom last back, ?_⟩, halike⟩
  rw [lowercase, List.append_assoc front, hfront, hlowered, List.append_assoc]

end CardGate.Text
