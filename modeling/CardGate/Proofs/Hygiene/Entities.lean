import CardGate.Proofs.Hygiene.Harmless

/-!
# Reading entities

A text that is written in HTML can be read back.  `unescapeHtml` goes through a text once, from left
to right, and puts the character of each entity in its place.  What it puts there is not looked at
again, so a text that looked like an entity before it was written comes back as it was.

The reason is local: whatever stands behind it, what is written for a character is read as that
character, and the reader goes on right behind it (`unescapeHtml_entity_append`).  Hence no two
texts are written alike.  Which texts are written ones is `IsEscaped`, and those are written again
as they were when they have been read (`IsEscaped.escapeHtml_unescapeHtml`).
-/

namespace CardGate.Hygiene

/-- The entities with the characters they stand for. -/
def entityTable : List (List Char × Char) :=
  [("&amp;".toList, '&'), ("&lt;".toList, '<'), ("&gt;".toList, '>'), ("&#34;".toList, '"'),
    ("&#39;".toList, '\'')]

/-- Reads a text of which the first `skip` characters belong to the last entity. -/
def unescapeFrom (skip : Nat) : List Char → List Char
  | [] => []
  | c :: rest =>
    match skip with
    | skip + 1 => unescapeFrom skip rest
    | 0 =>
      match entityTable.find? (·.1.isPrefixOf (c :: rest)) with
      | some (word, d) => d :: unescapeFrom (word.length - 1) rest
      | none => c :: unescapeFrom 0 rest

/-- The text with every entity replaced by its character, in one pass from left to right. -/
def unescapeHtml (cs : List Char) : List Char :=
  unescapeFrom 0 cs

/-- Whether a text can be one that is written in HTML: every mark begins an entity, and the other
characters that mean something do not occur. -/
structure IsEscaped (text : List Char) : Prop where
  no_markup : ∀ c ∈ text, isMarkup c = false
  marked : ∀ front back, text = front ++ '&' :: back → ∃ e ∈ entities, e <+: '&' :: back

variable {c d : Char} {word rest : List Char}

/-! ## The table -/

/-- Every character is written as its entry says, or as itself if it has none. -/
theorem entity_mem_table_or_eq (c : Char) :
    (entity c, c) ∈ entityTable ∨ c ≠ '&' ∧ entity c = [c] := by
  unfold entity
  split
  case h_6 hne _ _ _ _ => exact Or.inr ⟨hne, rfl⟩
  all_goals exact Or.inl (by decide)

theorem entity_of_mem_table (h : (word, d) ∈ entityTable) : entity d = word := by
  have hall : ∀ entry ∈ entityTable, entity entry.2 = entry.1 := by decide
  exact hall (word, d) h

theorem mem_entities_iff : word ∈ entities ↔ ∃ d, (word, d) ∈ entityTable := by
  have hmap : entities = entityTable.map (·.1) := by decide
  simp [hmap]

/-- At the front of a text there is one entity at most. -/
theorem find?_table_of_mem (h : (word, d) ∈ entityTable) (rest : List Char) :
    entityTable.find? (·.1.isPrefixOf (word ++ rest)) = some (word, d) := by
  simp only [entityTable, List.mem_cons, List.not_mem_nil, or_false, Prod.mk.injEq] at h
  rcases h with ⟨rfl, rfl⟩ | ⟨rfl, rfl⟩ | ⟨rfl, rfl⟩ | ⟨rfl, rfl⟩ | ⟨rfl, rfl⟩ <;> rfl

/-- There is none where there is no mark. -/
theorem find?_table_of_ne (h : c ≠ '&') (rest : List Char) :
    entityTable.find? (·.1.isPrefixOf (c :: rest)) = none := by
  rw [List.find?_eq_none]
  intro entry hentry hbegins
  have hmark : ∀ entry ∈ entityTable, entry.1.head? = some '&' := by decide
  obtain ⟨more, hmore⟩ := List.head?_eq_some_iff.1 (hmark entry hentry)
  rw [hmore, List.isPrefixOf_iff_prefix, List.cons_prefix_cons] at hbegins
  exact h hbegins.1.symm

/-! ## Reading -/

theorem unescapeFrom_length (word rest : List Char) :
    unescapeFrom word.length (word ++ rest) = unescapeHtml rest := by
  induction word with
  | nil => rfl
  | cons c word ih => exact ih

/-- An entity is read as its character. -/
theorem unescapeHtml_of_mem (h : (word, d) ∈ entityTable) (rest : List Char) :
    unescapeHtml (word ++ rest) = d :: unescapeHtml rest := by
  have hfind := find?_table_of_mem h rest
  have hne : word ≠ [] := entity_of_mem_table h ▸ entity_ne_nil d
  obtain ⟨c, more, rfl⟩ := List.exists_cons_of_ne_nil hne
  rw [List.cons_append] at hfind ⊢
  rw [unescapeHtml, unescapeFrom, hfind]
  exact congrArg (d :: ·) (unescapeFrom_length more rest)

/-- A character that is no mark is read as itself. -/
theorem unescapeHtml_cons_of_ne (h : c ≠ '&') (rest : List Char) :
    unescapeHtml (c :: rest) = c :: unescapeHtml rest := by
  rw [unescapeHtml, unescapeFrom, find?_table_of_ne h]
  rfl

/-- What is written for a character is read as the character, whatever stands behind it. -/
theorem unescapeHtml_entity_append (c : Char) (rest : List Char) :
    unescapeHtml (entity c ++ rest) = c :: unescapeHtml rest := by
  rcases entity_mem_table_or_eq c with hmem | ⟨hne, hself⟩
  · exact unescapeHtml_of_mem hmem rest
  · rw [hself]
    exact unescapeHtml_cons_of_ne hne rest

/-- A text that is written in HTML is read back, whatever stands behind it. -/
theorem unescapeHtml_escapeHtml_append (cs rest : List Char) :
    unescapeHtml (escapeHtml cs ++ rest) = cs ++ unescapeHtml rest := by
  induction cs with
  | nil => rfl
  | cons c cs ih =>
    rw [escapeHtml_cons, List.append_assoc, unescapeHtml_entity_append, ih, List.cons_append]

theorem unescapeHtml_escapeHtml (cs : List Char) : unescapeHtml (escapeHtml cs) = cs := by
  simpa [unescapeHtml, unescapeFrom] using unescapeHtml_escapeHtml_append cs []

/-! ## Written texts -/

theorem isEscaped_escapeHtml (cs : List Char) : IsEscaped (escapeHtml cs) where
  no_markup _ h := isMarkup_of_mem_escapeHtml h
  marked _ _ h := exists_entity_of_mark h

/-- What stands behind a part of a written text is one, if it is not cut within an entity. -/
theorem IsEscaped.of_append (h : IsEscaped (word ++ rest)) : IsEscaped rest where
  no_markup c hc := h.no_markup c (List.mem_append_right word hc)
  marked front back heq := h.marked (word ++ front) back (by rw [heq, List.append_assoc])

/-- A written text is empty, begins with an entity, or begins with a character that is written as
itself. -/
theorem IsEscaped.cases {text : List Char} (h : IsEscaped text) :
    text = [] ∨ (∃ word d rest, (word, d) ∈ entityTable ∧ text = word ++ rest) ∨
      ∃ c rest, c ≠ '&' ∧ entity c = [c] ∧ text = c :: rest := by
  cases text with
  | nil => exact Or.inl rfl
  | cons c rest =>
    right
    by_cases hmark : c = '&'
    · subst hmark
      obtain ⟨word, hword, more, hmore⟩ := h.marked [] rest rfl
      obtain ⟨d, hd⟩ := mem_entities_iff.1 hword
      exact Or.inl ⟨word, d, more, hd, hmore.symm⟩
    · refine Or.inr ⟨c, rest, hmark, ?_, rfl⟩
      have hmarkup := h.no_markup c List.mem_cons_self
      rcases entity_mem_table_or_eq c with hmem | ⟨-, hself⟩
      · have htable : ∀ entry ∈ entityTable, entry.2 ≠ '&' → isMarkup entry.2 = true := by decide
        rw [htable _ hmem hmark] at hmarkup
        cases hmarkup
      · exact hself

/-- Reading a text and writing it again gives the text if it can be a written one. -/
theorem IsEscaped.escapeHtml_unescapeHtml {text : List Char} (h : IsEscaped text) :
    escapeHtml (unescapeHtml text) = text := by
  induction hlength : text.length using Nat.strong_induction_on generalizing text with
  | h length ih =>
    subst hlength
    rcases h.cases with rfl | ⟨word, d, rest, hmem, rfl⟩ | ⟨c, rest, hne, hself, rfl⟩
    · rfl
    · have hentity := entity_of_mem_table hmem
      have hpos := List.length_pos_iff.2 (hentity ▸ entity_ne_nil d)
      rw [unescapeHtml_of_mem hmem, escapeHtml_cons, hentity,
        ih rest.length (by rw [List.length_append]; omega) h.of_append rfl]
    · have hrest : IsEscaped rest := @IsEscaped.of_append [c] rest h
      rw [unescapeHtml_cons_of_ne hne, escapeHtml_cons, hself,
        ih rest.length (Nat.lt_succ_self _) hrest rfl]
      rfl

/-- Writing a text in HTML can be undone: replacing the entities in one pass gives the text back, so
no two texts are written alike.  Texts are written piece by piece.  What is read back from a text is
written as that text exactly if the text can be a written one. -/
theorem escapeHtml_reversible :
    (∀ cs, unescapeHtml (escapeHtml cs) = cs) ∧ Function.Injective escapeHtml ∧
      (∀ front back, escapeHtml (front ++ back) = escapeHtml front ++ escapeHtml back) ∧
      ∀ text, escapeHtml (unescapeHtml text) = text ↔ IsEscaped text := by
  refine ⟨unescapeHtml_escapeHtml, ?_, fun front back => List.flatMap_append, fun text => ?_⟩
  · exact Function.LeftInverse.injective unescapeHtml_escapeHtml
  · constructor
    · intro h
      rw [← h]
      exact isEscaped_escapeHtml (unescapeHtml text)
    · exact IsEscaped.escapeHtml_unescapeHtml

example : escapeHtml "<&lt;'".toList = "&lt;&amp;lt;&#39;".toList ∧
    unescapeHtml "&lt;&amp;lt;&#39;".toList = "<&lt;'".toList := by
  decide

end CardGate.Hygiene
