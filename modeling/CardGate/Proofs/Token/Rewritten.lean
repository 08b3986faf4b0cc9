import CardGate.Proofs.Text.Replace
import CardGate.Proofs.Text.Words
import CardGate.Proofs.Token.Found

/-!
# Texts in which tokens have been replaced

Each piece of a text is shown by some view: as it was, or, if it is a token that was found, as
another text in its place (`Rewrites`).

A token that occurs in the text only as a match may still occur elsewhere in the view, namely in
what was put in.  But it does not go on behind the piece it begins in, if each text that was put in
divides what stands on its two sides (`Divides`, `begins_within`).
-/

namespace CardGate.TokenFormat

open Pattern

/-! ## Texts that divide -/

/-- Whether a text in the place of a token that was found divides what stands on its two sides.  A
tagged token must not go on into it, nor begin in it; the places of numeric tokens have an edge of a
word on either side. -/
def Divides : TokenFormat → List Char → Prop
  | tagged, [] => False
  | tagged, c :: cs => c ∉ "ok_=".toList ∧ 't' ∉ c :: cs
  | numeric, _ => True

instance (format : TokenFormat) (cs : List Char) : Decidable (format.Divides cs) :=
  match format, cs with
  | tagged, [] => inferInstanceAs (Decidable False)
  | tagged, c :: cs => inferInstanceAs (Decidable (c ∉ "ok_=".toList ∧ 't' ∉ c :: cs))
  | numeric, _ => inferInstanceAs (Decidable True)

theorem Divides.sentinel_not_mem {cs : List Char} (h : tagged.Divides cs) : 't' ∉ cs := by
  cases cs with
  | nil => exact List.not_mem_nil
  | cons c cs => exact h.2

theorem divides_of_isDigit {format : TokenFormat} {cs : List Char} (hne : cs ≠ [])
    (h : ∀ c ∈ cs, c.isDigit = true) : format.Divides cs := by
  have hnone : "tok_=".toList.any Char.isDigit = false := by decide
  have hnot (c : Char) (hc : c ∈ cs) : c ∉ "tok_=".toList := by
    intro hmem
    exact List.any_eq_false.1 hnone c hmem (h c hc)
  cases format with
  | numeric => exact trivial
  | tagged =>
    obtain ⟨c, rest, rfl⟩ := List.exists_cons_of_ne_nil hne
    constructor
    · intro hc
      exact hnot c List.mem_cons_self (List.mem_cons_of_mem 't' hc)
    · intro ht
      exact hnot 't' ht List.mem_cons_self

/-- Such a text stays one when a token is replaced in it. -/
theorem Divides.replaceWord {format : TokenFormat} {cs token : List Char} (h : format.Divides cs)
    (spells : format.pattern.Spells token) (replacement : List Char) :
    format.Divides (Text.replaceWord token replacement cs) := by
  cases format with
  | numeric => exact trivial
  | tagged =>
    have habsent : ¬token <:+: cs := by
      intro hoccurs
      obtain ⟨c, tags, padding, -, -, -, rfl⟩ := exists_of_spells_tagged spells
      exact h.sentinel_not_mem (hoccurs.subset List.mem_cons_self)
    rwa [Text.replaceWord_of_absent habsent]

/-! ## Views -/

/-- Whether pieces are shown as they are, but for tokens that are found and replaced by texts that
divide what stands around them. -/
def Rewrites (format : TokenFormat) (view : Piece → List Char) (pieces : List Piece) : Prop :=
  ∀ piece ∈ pieces, view piece = piece.text ∨ ∃ cs, piece = .found cs ∧ format.Divides (view piece)

section

variable {format : TokenFormat} {view : Piece → List Char}

theorem Rewrites.view_other {pieces : List Piece} (rewrites : format.Rewrites view pieces) {c : Char}
    (hc : .other c ∈ pieces) : view (.other c) = [c] := by
  rcases rewrites _ hc with hkept | ⟨cs, hfound, -⟩
  · exact hkept
  · cases hfound

/-- The front of a view is the front of the text, or goes with it up to a token that is found and
then on with another text. -/
theorem Rewrites.prefix_cases {pieces : List Piece} (rewrites : format.Rewrites view pieces)
    {front : List Char} (h : front <+: pieces.flatMap view) :
    front <+: pieces.flatMap Piece.text ∨ ∃ mid found back c rest,
      pieces = mid ++ .found found :: back ∧ (format = .tagged → c ∉ "ok_=".toList) ∧
        front = mid.flatMap Piece.text ++ c :: rest := by
  induction pieces generalizing front with
  | nil => exact Or.inl h
  | cons piece pieces ih =>
    have hpieces : format.Rewrites view pieces := fun other hother =>
      rewrites other (List.mem_cons_of_mem piece hother)
    rw [List.flatMap_cons] at h ⊢
    rcases rewrites piece List.mem_cons_self with hkept | ⟨found, rfl, hdivides⟩
    · rw [hkept] at h
      rcases Text.prefix_append_cases h with hfront | ⟨more, -, rfl, hmore⟩
      · exact Or.inl (hfront.trans (List.prefix_append _ _))
      · rcases ih hpieces hmore with hsame | ⟨mid, found, back, c, rest, rfl, hc, rfl⟩
        · exact Or.inl ((List.prefix_append_right_inj _).2 hsame)
        · refine Or.inr ⟨piece :: mid, found, back, c, rest, rfl, hc, ?_⟩
          rw [List.flatMap_cons, List.append_assoc]
    · cases front with
      | nil => exact Or.inl List.nil_prefix
      | cons c rest =>
        refine Or.inr ⟨[], found, pieces, c, rest, rfl, ?_, rfl⟩
        rintro rfl
        cases hview : view (.found found) with
        | nil =>
          rw [hview] at hdivides
          exact hdivides.elim
        | cons d more =>
          rw [hview] at hdivides h
          obtain ⟨rfl, -⟩ := List.cons_prefix_cons.1 h
          exact hdivides.1

/-- A token that occurs in the text only as a match does not go on behind the piece of a view in which
it begins. -/
theorem Rewrites.begins_within {cs token : List Char}
    (rewrites : format.Rewrites view (format.pattern.cut cs))
    (hfound : .found token ∈ format.pattern.cut cs) (whole : format.pattern.OccursAsMatch cs token)
    {front back : List Piece} {piece : Piece} (hcut : format.pattern.cut cs = front ++ piece :: back)
    {before behind : List Char} (hview : view piece = before ++ behind) (hne : behind ≠ [])
    (hbegins : token <+: behind ++ back.flatMap view) : token <+: behind := by
  have spells := spells_of_mem_cut hfound
  have hback : format.Rewrites view back := by
    intro other hother
    apply rewrites
    rw [hcut]
    exact List.mem_append_right _ (List.mem_cons_of_mem _ hother)
  rcases Text.prefix_append_cases hbegins with hwithin | ⟨rest, hrest, rfl, hmore⟩
  · exact hwithin
  · exfalso
    have hpiece : piece ∈ format.pattern.cut cs := by
      rw [hcut]
      simp
    rcases rewrites piece hpiece with hkept | ⟨found, rfl, hdivides⟩
    · -- as far as the view goes with the text, the token occurs in the text
      have htext : piece.text = before ++ behind := hkept.symm.trans hview
      rcases hback.prefix_cases hmore with hsame | ⟨mid, other, back', c, more, rfl, hc, rfl⟩
      · obtain ⟨rfl, rfl⟩ := whole.eq_found_of_begins (text_ne_nil_of_mem_cut hfound) hcut htext hne
          ((List.prefix_append_right_inj _).2 hsame)
        have hlonger : behind ++ rest = behind := htext
        exact hrest (List.append_right_eq_self.1 hlonger)
      · rw [← List.append_assoc] at spells
        exact not_begins_before_found hcut htext hne hc more spells
    · have hsentinel : format = .tagged → 't' ∉ behind := by
        rintro rfl ht
        apply hdivides.sentinel_not_mem
        rw [hview]
        exact List.mem_append_right _ ht
      exact not_goes_on_behind_found hcut (fun c => hback.view_other) hsentinel hne hrest spells hmore

end

end CardGate.TokenFormat
