import CardGate.Proofs.Hygiene.Remains
import CardGate.Proofs.Pattern.Classes
import CardGate.Proofs.Pattern.Cut

/-!
# Harmless texts

Script fragments are cut out of a text after it has been written in HTML, so a cut might tear an
entity apart.  It never does.  Each kind of fragment either needs a `>`, and there is none in such a
text, or has no room for a `&`; and none begins with a character of an entity.  What is cut out is
therefore made of characters that are written as themselves, and what is left is written in HTML
again (`clean_eq_escapeHtml`).

It follows that a cleaned text `IsHarmless`: it can be put into a page as it is.
-/

namespace CardGate.Hygiene

open Pattern

/-! ## Entities -/

/-- The entities. -/
def entities : List (List Char) :=
  ["&amp;".toList, "&lt;".toList, "&gt;".toList, "&#34;".toList, "&#39;".toList]

/-- A character is written as an entity, or as itself if it does not mark one. -/
theorem entity_mem_or_eq (c : Char) : entity c ∈ entities ∨ c ≠ '&' ∧ entity c = [c] := by
  unfold entity
  split
  case h_6 hne _ _ _ _ => exact Or.inr ⟨hne, rfl⟩
  all_goals exact Or.inl (by decide)

theorem entity_ne_nil (c : Char) : entity c ≠ [] := by
  rcases entity_mem_or_eq c with hmem | ⟨-, hself⟩
  · have hne : ∀ e ∈ entities, e ≠ [] := by decide
    exact hne _ hmem
  · rw [hself]
    exact List.cons_ne_nil c []

theorem escapeHtml_cons (c : Char) (cs : List Char) :
    escapeHtml (c :: cs) = entity c ++ escapeHtml cs :=
  rfl

/-- Behind its first character, what is written for a character is the rest of an entity. -/
theorem mem_flatten_of_entity {c d : Char} {more : List Char} (h : entity c = d :: more) :
    ∀ e ∈ more, e ∈ entities.flatten := by
  intro e he
  rcases entity_mem_or_eq c with hmem | ⟨-, hself⟩
  · exact List.mem_flatten.2 ⟨entity c, hmem, h ▸ List.mem_cons_of_mem d he⟩
  · obtain ⟨-, rfl⟩ := List.cons.inj (hself.symm.trans h)
    cases he

/-- The mark stands at the front of an entity only. -/
theorem mem_entities_of_mark {c : Char} {front back : List Char}
    (h : entity c = front ++ '&' :: back) : front = [] ∧ entity c ∈ entities := by
  rcases entity_mem_or_eq c with hmem | ⟨hne, hself⟩
  · refine ⟨?_, hmem⟩
    have htail : ∀ e ∈ entities, '&' ∉ e.tail := by decide
    cases front with
    | nil => rfl
    | cons d front =>
      refine absurd ?_ (htail _ hmem)
      rw [h]
      exact List.mem_append_right front List.mem_cons_self
  · have hmark : '&' ∈ [c] := by
      rw [← hself, h]
      exact List.mem_append_right front List.mem_cons_self
    exact absurd (List.mem_singleton.1 hmark).symm hne

/-- Every mark in a text written in HTML begins an entity. -/
theorem exists_entity_of_mark {cs front back : List Char}
    (h : escapeHtml cs = front ++ '&' :: back) : ∃ e ∈ entities, e <+: '&' :: back := by
  induction cs generalizing front with
  | nil => simp [escapeHtml] at h
  | cons c cs ih =>
    rw [escapeHtml_cons] at h
    rcases List.append_eq_append_iff.1 h with ⟨behind, -, hmore⟩ | ⟨within, hentity, hback⟩
    · exact ih hmore
    · cases within with
      | nil =>
        rw [List.nil_append] at hback
        exact @ih [] hback.symm
      | cons d within =>
        obtain ⟨rfl, hback⟩ := List.cons.inj hback
        obtain ⟨rfl, hmem⟩ := mem_entities_of_mark hentity
        refine ⟨entity c, hmem, escapeHtml cs, ?_⟩
        rw [hentity, hback]
        rfl

/-- A front without a mark is written as itself. -/
theorem exists_of_escapeHtml_eq_append {cs word back : List Char}
    (h : escapeHtml cs = word ++ back) (hmark : '&' ∉ word) :
    ∃ rest, cs = word ++ rest ∧ escapeHtml rest = back := by
  induction word generalizing cs with
  | nil => exact ⟨cs, rfl, h⟩
  | cons d word ih =>
    rw [List.mem_cons, not_or] at hmark
    cases cs with
    | nil => cases h
    | cons c cs =>
      rw [escapeHtml_cons] at h
      rcases entity_mem_or_eq c with hmem | ⟨-, hself⟩
      · have hhead : ∀ e ∈ entities, e.head? = some '&' := by decide
        have hd := congrArg List.head? h
        rw [List.head?_append, hhead _ hmem] at hd
        exact absurd (Option.some.inj hd) hmark.1
      · rw [hself] at h
        obtain ⟨rfl, hmore⟩ := List.cons.inj h
        obtain ⟨rest, rfl, hrest⟩ := ih hmore hmark.2
        exact ⟨rest, rfl, hrest⟩

/-! ## Cutting -/

/-- Whether a word can only be cut out of characters that are written as themselves. -/
structure Spares (word : List Char) : Prop where
  unmarked : '&' ∉ word
  head : ∀ c ∈ word.head?, c ∉ entities.flatten

/-- A script fragment that a text written in HTML may hold. -/
theorem spares_of_spells {p : Pattern} (hp : p ∈ scriptFragments) {word : List Char}
    (hspells : p.Spells word) (hmarkup : ∀ c ∈ word, isMarkup c = false) : Spares word where
  unmarked := by
    have hclosed : '>' ∉ word := fun hmem => absurd (hmarkup '>' hmem) (by decide)
    simp only [scriptFragments, List.mem_cons, List.not_mem_nil, or_false] at hp
    rcases hp with rfl | rfl | rfl | rfl | rfl
    · exact absurd (mem_of_spells_row hspells (by simp)) hclosed
    · exact not_mem_of_spells hspells (by decide)
    · exact not_mem_of_spells hspells (by decide)
    · exact not_mem_of_spells hspells (by decide)
    · exact absurd (mem_of_spells_row hspells (by simp)) hclosed
  head := by
    intro c hc hmem
    have hbegins : ∀ p ∈ scriptFragments, entities.flatten.any p.begins = false := by decide
    obtain ⟨word, rfl⟩ := List.head?_eq_some_iff.1 hc
    exact List.any_eq_false.1 (hbegins p hp) c hmem (begins_of_spells hspells)

/-- Where matches are words of characters that are written as themselves, leaving them out of a
text written in HTML leaves such a text.  At the front there may be the rest of an entity. -/
theorem exists_escapeHtml_of_gaps {pieces : List Piece} {rest cs : List Char}
    (hpieces : ∀ word, .found word ∈ pieces → word ≠ [] ∧ Spares word)
    (hrest : ∀ c ∈ rest, c ∈ entities.flatten)
    (htext : pieces.flatMap Piece.text = rest ++ escapeHtml cs) :
    ∃ es, es.Sublist cs ∧ (pieces.flatMap Piece.gaps).reduceOption = rest ++ escapeHtml es := by
  induction pieces generalizing rest cs with
  | nil =>
    obtain ⟨rfl, -⟩ := List.append_eq_nil_iff.1 htext.symm
    exact ⟨[], List.nil_sublist cs, rfl⟩
  | cons piece pieces ih =>
    have hmore : ∀ word, .found word ∈ pieces → word ≠ [] ∧ Spares word :=
      fun word hword => hpieces word (List.mem_cons_of_mem piece hword)
    rw [List.flatMap_cons] at htext
    rw [List.flatMap_cons, List.reduceOption_append]
    cases piece with
    | found word =>
      obtain ⟨hne, hspares⟩ := hpieces word List.mem_cons_self
      rw [reduceOption_gaps_found, List.nil_append]
      cases rest with
      | nil =>
        obtain ⟨others, rfl, hothers⟩ := exists_of_escapeHtml_eq_append htext.symm hspares.unmarked
        obtain ⟨es, hsub, hes⟩ := @ih [] others hmore (by simp) hothers.symm
        exact ⟨es, hsub.trans (List.sublist_append_right word others), hes⟩
      | cons d rest =>
        obtain ⟨c, word, rfl⟩ := List.exists_cons_of_ne_nil hne
        obtain ⟨rfl, -⟩ := List.cons.inj htext
        exact absurd (hrest c List.mem_cons_self) (hspares.head c rfl)
    | other c =>
      cases rest with
      | nil =>
        cases cs with
        | nil => cases htext
        | cons d cs =>
          obtain ⟨e, more, hentity⟩ := List.exists_cons_of_ne_nil (entity_ne_nil d)
          rw [List.nil_append, escapeHtml_cons, hentity] at htext
          obtain ⟨rfl, hbehind⟩ := List.cons.inj htext
          obtain ⟨es, hsub, hes⟩ := ih hmore (mem_flatten_of_entity hentity) hbehind
          refine ⟨d :: es, hsub.cons_cons d, ?_⟩
          rw [hes, escapeHtml_cons, hentity]
          rfl
      | cons d rest =>
        obtain ⟨rfl, hbehind⟩ := List.cons.inj htext
        have hmem : ∀ e ∈ rest, e ∈ entities.flatten := (List.forall_mem_cons.1 hrest).2
        obtain ⟨es, hsub, hes⟩ := ih hmore hmem hbehind
        refine ⟨es, hsub, ?_⟩
        rw [hes]
        rfl

theorem exists_deleteAll_escapeHtml {p : Pattern} (hp : p ∈ scriptFragments) (cs : List Char) :
    ∃ es, es.Sublist cs ∧ p.deleteAll (escapeHtml cs) = escapeHtml es := by
  have hpieces (word : List Char) (hword : .found word ∈ p.cut (escapeHtml cs)) :
      word ≠ [] ∧ Spares word := by
    refine ⟨text_ne_nil_of_mem_cut hword, spares_of_spells hp (spells_of_mem_cut hword) ?_⟩
    intro c hc
    apply @isMarkup_of_mem_escapeHtml cs
    rw [← p.flatMap_text_cut (escapeHtml cs)]
    exact List.mem_flatMap.2 ⟨.found word, hword, hc⟩
  obtain ⟨es, hsub, hes⟩ :=
    @exists_escapeHtml_of_gaps _ [] cs hpieces (by simp) (p.flatMap_text_cut (escapeHtml cs))
  exact ⟨es, hsub, (reduceOption_gaps _).symm.trans hes⟩

/-- Cutting script fragments out of a text written in HTML leaves a text written in HTML. -/
theorem exists_foldl_deleteAll_escapeHtml {patterns : List Pattern}
    (h : ∀ p ∈ patterns, p ∈ scriptFragments) (cs : List Char) :
    ∃ es, es.Sublist cs ∧
      patterns.foldl (fun text p => p.deleteAll text) (escapeHtml cs) = escapeHtml es := by
  induction patterns generalizing cs with
  | nil => exact ⟨cs, List.Sublist.refl cs, rfl⟩
  | cons p patterns ih =>
    obtain ⟨hp, hpatterns⟩ := List.forall_mem_cons.1 h
    obtain ⟨ds, hds, hdelete⟩ := exists_deleteAll_escapeHtml hp cs
    obtain ⟨es, hes, hmore⟩ := ih hpatterns ds
    refine ⟨es, hes.trans hds, ?_⟩
    rw [List.foldl_cons, hdelete, hmore]

/-! ## Trimming -/

theorem entity_of_isBlank {c : Char} (h : Text.isBlank c = true) : entity c = [c] := by
  unfold entity
  split
  case h_6 => rfl
  all_goals cases h

/-- What is written for a character that is not blank has no blank at either end. -/
theorem entity_ends {c : Char} (h : Text.isBlank c = false) :
    (entity c).head?.any (!Text.isBlank ·) = true ∧
      (entity c).reverse.head?.any (!Text.isBlank ·) = true := by
  rcases entity_mem_or_eq c with hmem | ⟨-, hself⟩
  · have hends : ∀ e ∈ entities, e.head?.any (!Text.isBlank ·) = true ∧
        e.reverse.head?.any (!Text.isBlank ·) = true := by decide
    exact hends _ hmem
  · simp [hself, h]

/-- A text can as well be trimmed before it is written in HTML. -/
theorem trim_escapeHtml (cs : List Char) :
    Text.trim (escapeHtml cs) = escapeHtml (Text.trim cs) := by
  have hleft : Text.trimLeft (escapeHtml cs) = escapeHtml (Text.trimLeft cs) :=
    Text.dropWhile_flatMap (fun _ h => entity_of_isBlank h) (fun _ h => (entity_ends h).1) cs
  have hright : ((escapeHtml (Text.trimLeft cs)).reverse.dropWhile Text.isBlank) =
      ((Text.trimLeft cs).reverse.dropWhile Text.isBlank).flatMap (List.reverse ∘ entity) := by
    rw [escapeHtml, List.reverse_flatMap]
    exact Text.dropWhile_flatMap (fun _ h => congrArg List.reverse (entity_of_isBlank h))
      (fun _ h => (entity_ends h).2) _
  have hentity : List.reverse ∘ List.reverse ∘ entity = entity :=
    funext fun c => List.reverse_reverse (entity c)
  rw [Text.trim, Text.trimRight, hleft, hright, List.reverse_flatMap, hentity]
  rfl

/-! ## Cleaned texts -/

/-- Whether a text means itself wherever it is put into a page. -/
structure IsHarmless (cs : List Char) : Prop where
  no_markup : ∀ c ∈ ['<', '>', '"', '\''], c ∉ cs
  no_control : ∀ c ∈ cs, c < ' ' → c = '\t' ∨ c = '\n' ∨ c = '\r'
  marked : ∀ front back, cs = front ++ '&' :: back → ∃ e ∈ entities, e <+: '&' :: back
  head : ∀ c ∈ cs.head?, Text.isBlank c = false
  last : ∀ c ∈ cs.getLast?, Text.isBlank c = false

/-- A cleaned text is what some of the characters that survive are in HTML. -/
theorem clean_eq_escapeHtml (cs : List Char) :
    ∃ es, es.Sublist (cs.filter isKept) ∧ clean cs = escapeHtml es := by
  obtain ⟨es, hes, hcut⟩ := exists_foldl_deleteAll_escapeHtml (fun _ h => h) (cs.filter isKept)
  refine ⟨Text.trim es, (Text.trim_infix es).sublist.trans hes, ?_⟩
  rw [← trim_escapeHtml, ← hcut]
  rfl

theorem isKept_of_mem_entity {c d : Char} (hc : isKept c = true) (h : d ∈ entity c) :
    isKept d = true := by
  rcases entity_mem_or_eq c with hmem | ⟨-, hself⟩
  · have hkept : ∀ e ∈ entities, e.all isKept = true := by decide
    exact List.all_eq_true.1 (hkept _ hmem) d h
  · rw [hself, List.mem_singleton] at h
    exact h ▸ hc

/-- A cleaned text is harmless, whatever was cut out of it. -/
theorem clean_harmless (cs : List Char) : IsHarmless (clean cs) := by
  obtain ⟨es, hes, hclean⟩ := clean_eq_escapeHtml cs
  constructor
  · intro c hc hmem
    rw [hclean] at hmem
    have hmarkup : ∀ c ∈ ['<', '>', '"', '\''], isMarkup c = true :=
      List.all_eq_true.1 (by decide)
    have hnone := isMarkup_of_mem_escapeHtml hmem
    rw [hmarkup c hc] at hnone
    cases hnone
  · intro c hc hlt
    rw [hclean] at hc
    obtain ⟨d, hd, hmem⟩ := List.mem_flatMap.1 hc
    have hkept := isKept_of_mem_entity (List.of_mem_filter (hes.subset hd)) hmem
    simpa [isKept, Char.not_le.2 hlt, or_assoc] using hkept
  · intro front back h
    exact exists_entity_of_mark (hclean.symm.trans h)
  · exact fun c hc => Text.isBlank_of_head_trim hc
  · exact fun c hc => Text.isBlank_of_getLast_trim hc

example : clean "<onx=> <script>&".toList = "&lt;&gt; &lt;script&gt;&amp;".toList := by
  decide

end CardGate.Hygiene
