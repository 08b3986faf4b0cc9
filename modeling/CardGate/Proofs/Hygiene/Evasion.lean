import CardGate.Hygiene.Injection
import CardGate.Proofs.Pattern.Classes
import CardGate.Proofs.Pattern.InOrder
import CardGate.Proofs.Text.Lowercase
import CardGate.Proofs.Text.Words

/-!
# Evading detection

Detection of SQL puts a text in lower case and looks for fragments in it.  All of them come down to
patterns, by `hasSql_iff`: also the rows of words, which are looked for line by line, are what one
pattern matches that does not go beyond a line.

None of the patterns tells one small sigma from the other, and nothing else may change in what is
written for a text when it is put into another one.  So a fragment is hidden neither by what is put
around it nor by the case of its letters (`hasSql_padded`).
-/

namespace CardGate.Hygiene

open Pattern

/-! ## Rows of words -/

/-- The words of a row one after the other, with anything in between but the end of a line. -/
def wordRow (words : List String) : Pattern :=
  spaced notNewline (words.map anyCase)

/-- Words are in order within some line if the pattern matches that has them all. -/
theorem hasWordRow_iff {words : List String} {cs : List Char}
    (hclasses : ∀ accepts ∈ (wordRow words).classes, accepts '\n' = false) :
    hasWordRow words cs = true ↔ ∃ word, (wordRow words).Spells word ∧ word <:+: cs := by
  have hplain : ∀ p ∈ words.map anyCase, p.isPlain = true :=
    List.forall_mem_map.2 fun word _ => plain_anyCase word
  have hfixed : ∀ p ∈ words.map anyCase, FixedLength p :=
    List.forall_mem_map.2 fun word _ => fixedLength_anyCase word
  have hline (line : List Char) (hmem : line ∈ Text.fields (· == '\n') cs) :
      inOrder (words.map anyCase) (Place.start line) = true ↔
        ∃ word, (wordRow words).Spells word ∧ word <:+: line := by
    obtain ⟨-, hnone⟩ := Text.infix_of_mem_fields hmem
    exact inOrder_iff hplain hfixed fun c hc => by simpa [notNewline] using hnone c hc
  rw [hasWordRow, List.any_eq_true]
  constructor
  · intro h
    obtain ⟨line, hmem, horder⟩ := h
    obtain ⟨word, hspells, hword⟩ := (hline line hmem).1 horder
    exact ⟨word, hspells, hword.trans (Text.infix_of_mem_fields hmem).1⟩
  · intro h
    obtain ⟨word, hspells, hword⟩ := h
    have hnone : ∀ c ∈ word, (c == '\n') = false := by
      intro c hc
      rw [beq_eq_false_iff_ne]
      rintro rfl
      exact not_mem_of_spells hspells hclasses hc
    obtain ⟨line, hmem, hwithin⟩ := Text.exists_mem_fields_of_infix hword hnone
    exact ⟨line, hmem, (hline line hmem).2 ⟨word, hspells, hwithin⟩⟩

/-! ## Patterns -/

/-- The patterns that SQL detection comes down to. -/
def sqlPatterns : List Pattern :=
  sqlFragments ++ sqlWordRows.map wordRow

theorem plain_of_mem_sqlPatterns : ∀ p ∈ sqlPatterns, p.isPlain = true := by
  decide

/-- No pattern tells the small sigmas apart. -/
theorem sigma_of_mem_sqlPatterns :
    ∀ p ∈ sqlPatterns, ∀ accepts ∈ p.classes, accepts 'σ' = accepts 'ς' := by
  decide

/-- Detection finds a fragment if a part of the text, put in lower case, is one. -/
theorem hasSql_iff {cs : List Char} :
    hasSql cs = true ↔ ∃ p ∈ sqlPatterns, ∃ word, p.Spells word ∧ word <:+: Text.lowercase cs := by
  have hrows : ∀ words ∈ sqlWordRows, ∀ accepts ∈ (wordRow words).classes,
      accepts '\n' = false := by
    decide
  rw [hasSql, Bool.or_eq_true, List.any_eq_true, List.any_eq_true]
  constructor
  · intro h
    rcases h with ⟨p, hp, hmatches⟩ | ⟨words, hwords, hrow⟩
    · have hmem : p ∈ sqlPatterns := List.mem_append_left _ hp
      exact ⟨p, hmem, (matchesIn_iff_spells (plain_of_mem_sqlPatterns p hmem)).1 hmatches⟩
    · exact ⟨wordRow words, List.mem_append_right _ (List.mem_map_of_mem hwords),
        (hasWordRow_iff (hrows words hwords)).1 hrow⟩
  · intro h
    obtain ⟨p, hmem, hfound⟩ := h
    rcases List.mem_append.1 hmem with hp | hp
    · exact Or.inl ⟨p, hp, (matchesIn_iff_spells (plain_of_mem_sqlPatterns p hmem)).2 hfound⟩
    · obtain ⟨words, hwords, rfl⟩ := List.mem_map.1 hp
      exact Or.inr ⟨words, hwords, (hasWordRow_iff (hrows words hwords)).2 hfound⟩

theorem accepts_of_alike {p : Pattern} (hp : p ∈ sqlPatterns) :
    ∀ accepts ∈ p.classes, ∀ c d, Text.Alike c d → accepts c = true → accepts d = true := by
  intro accepts haccepts c d halike hc
  have hsigma := sigma_of_mem_sqlPatterns p hp accepts haccepts
  have hboth (e : Char) (he : e ∈ ['σ', 'ς']) : accepts e = accepts 'σ' := by
    rcases List.mem_cons.1 he with rfl | he
    · rfl
    · rw [List.mem_singleton.1 he, hsigma]
  rcases halike with rfl | ⟨hcmem, hdmem⟩
  · exact hc
  · rw [hboth d hdmem, ← hboth c hcmem]
    exact hc

/-- What is detected in a text is detected in any text around it, whatever the case of A to Z. -/
theorem hasSql_padded {front cs cs' back : List Char} (hcase : Text.lower cs' = Text.lower cs)
    (h : hasSql cs = true) : hasSql (front ++ cs' ++ back) = true := by
  obtain ⟨p, hp, word, hspells, before, after, hword⟩ := hasSql_iff.1 h
  obtain ⟨lowered, hlowered, halike⟩ := Text.exists_alike_lowercase hcase front back
  -- the fragment in the text on its own is found again as a part of what is written for the text
  rw [← hword] at halike
  obtain ⟨upto, behind, hupto, -, rfl⟩ := exists_append_of_forall₂ halike
  obtain ⟨ahead, word', -, hsame, rfl⟩ := exists_append_of_forall₂ hupto
  have hspells' : p.Spells word' := spells_of_forall₂ (accepts_of_alike hp) hsame hspells
  exact hasSql_iff.2 ⟨p, hp, word', hspells', List.IsInfix.trans ⟨ahead, behind, rfl⟩ hlowered⟩

/-- The sigma is a final one in the text on its own, and not in the text around it. -/
theorem hasSql_padded_sample :
    hasSql ("'; ".toList ++ "Union SELECT ΑΣ".toList ++ "Α".toList) = true :=
  @hasSql_padded "'; ".toList "union select ΑΣ".toList "Union SELECT ΑΣ".toList "Α".toList
    (by decide) (by decide +kernel)

end CardGate.Hygiene
