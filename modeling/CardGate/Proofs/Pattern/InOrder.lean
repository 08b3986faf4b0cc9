import CardGate.Proofs.Pattern.Language

/-!
# Patterns in order

`Pattern.inOrder` takes the first match of each pattern behind the match before it, and never goes
back on a match.  For words of fixed length nothing is lost by that: the first match stops at least
as early as any other, so what could follow another can follow it (`exists_afterFirst?_of_spells`).
By `inOrder_iff` the patterns are found exactly if the pattern is that has them all, with a gap in
front of each.
-/

namespace CardGate.Pattern

variable {pattern : Pattern}

/-- Whether all words of a pattern have the same length. -/
def FixedLength (pattern : Pattern) : Prop :=
  ∃ n, ∀ word, pattern.Spells word → word.length = n

theorem plain_anyCase (s : String) : (anyCase s).isPlain = true := by
  rw [anyCase]
  induction s.toList with
  | nil => rfl
  | cons letter letters ih =>
    cases letters with
    | nil => rfl
    | cons other letters => exact ih

theorem fixedLength_anyCase (s : String) : FixedLength (anyCase s) := by
  refine ⟨s.toList.length, fun word hspells => ?_⟩
  have hclasses : (row ((s.toList.map sameLetter).map one)).Spells word := by
    rw [List.map_map]
    exact hspells
  rw [← (spells_row_map_one.1 hclasses).length_eq, List.length_map]

/-! ## The first match -/

/-- The first match is a match. -/
theorem exists_of_afterFirst? {before : Option Char} {cs : List Char} {e : Place}
    (h : pattern.afterFirst? before cs = some e) :
    ∃ front word, pattern.Spells word ∧ cs = front ++ (word ++ e.after) := by
  have hhere {before : Option Char} {cs : List Char}
      (he : (pattern.ends ⟨before, cs⟩).head? = some e) :
      ∃ front word, pattern.Spells word ∧ cs = front ++ (word ++ e.after) := by
    obtain ⟨word, hspells, hpasses⟩ := exists_spells_of_mem_ends (List.mem_of_head? he)
    exact ⟨[], word, hspells, hpasses.1⟩
  induction cs generalizing before with
  | nil => exact hhere h
  | cons c rest ih =>
    rw [afterFirst?] at h
    split at h
    · next hfound => exact hhere (hfound.trans h)
    · obtain ⟨front, word, hspells, hrest⟩ := ih h
      exact ⟨c :: front, word, hspells, congrArg (c :: ·) hrest⟩

/-- Where a match begins at the place or behind it, one at the place leaves all that is behind. -/
theorem suffix_of_mem_ends (fixed : FixedLength pattern) {p e : Place} (he : e ∈ pattern.ends p)
    {front word back : List Char} (hspells : pattern.Spells word)
    (hafter : p.after = front ++ (word ++ back)) : back <:+ e.after := by
  obtain ⟨n, hn⟩ := fixed
  obtain ⟨first, hfirst, hpasses⟩ := exists_spells_of_mem_ends he
  have hback : back <:+ p.after := ⟨front ++ word, by rw [hafter, List.append_assoc]⟩
  refine List.suffix_of_suffix_length_le hback ⟨first, hpasses.1.symm⟩ ?_
  have hlength := congrArg List.length (hpasses.1.symm.trans hafter)
  simp only [List.length_append, hn first hfirst, hn word hspells] at hlength
  omega

/-- The first match stops where any other does, or before. -/
theorem exists_afterFirst?_of_spells (plain : pattern.isPlain = true) (fixed : FixedLength pattern)
    {before : Option Char} {front word back : List Char} (hspells : pattern.Spells word) :
    ∃ e, pattern.afterFirst? before (front ++ (word ++ back)) = some e ∧ back <:+ e.after := by
  induction front generalizing before with
  | nil =>
    obtain ⟨e, he⟩ := exists_head?_ends_of_spells plain hspells before back
    refine ⟨e, ?_, @suffix_of_mem_ends _ fixed _ e (List.mem_of_head? he) [] word back hspells rfl⟩
    rw [List.nil_append]
    generalize word ++ back = cs at he ⊢
    cases cs with
    | nil => exact he
    | cons c rest => rw [afterFirst?, he]
  | cons c front ih =>
    rw [List.cons_append, afterFirst?]
    split
    · next e he =>
      have hafter : c :: (front ++ (word ++ back)) = c :: front ++ (word ++ back) := rfl
      exact ⟨e, rfl, suffix_of_mem_ends fixed (List.mem_of_head? he) hspells hafter⟩
    · exact ih

/-! ## One match after the other -/

/-- Patterns one after the other, each behind any characters of a class. -/
def spaced (accepts : Char → Bool) (patterns : List Pattern) : Pattern :=
  row (patterns.flatMap fun p => [many accepts, p])

variable {accepts : Char → Bool} {patterns : List Pattern}

theorem spells_spaced_cons {cs : List Char} :
    (spaced accepts (pattern :: patterns)).Spells cs ↔
      ∃ gap word back, (∀ c ∈ gap, accepts c = true) ∧ pattern.Spells word ∧
        (spaced accepts patterns).Spells back ∧ cs = gap ++ (word ++ back) := by
  rw [spaced, List.flatMap_cons, List.cons_append, spells_row_cons]
  constructor
  · intro h
    obtain ⟨gap, others, hgap, hothers, rfl⟩ := h
    obtain ⟨word, back, hword, hback, rfl⟩ := spells_row_cons.1 hothers
    exact ⟨gap, word, back, hgap, hword, hback, rfl⟩
  · intro h
    obtain ⟨gap, word, back, hgap, hword, hback, rfl⟩ := h
    exact ⟨gap, word ++ back, hgap, spells_row_cons.2 ⟨word, back, hword, hback, rfl⟩, rfl⟩

/-- What is in front of the first pattern belongs to its gap. -/
theorem exists_prefix_of_spells_spaced {word cs : List Char}
    (h : (spaced accepts patterns).Spells word) (hword : word <:+: cs)
    (haccepts : ∀ c ∈ cs, accepts c = true) :
    ∃ whole, (spaced accepts patterns).Spells whole ∧ whole <+: cs := by
  cases patterns with
  | nil => exact ⟨[], rfl, List.nil_prefix⟩
  | cons pattern patterns =>
    obtain ⟨before, after, rfl⟩ := hword
    obtain ⟨gap, first, back, hgap, hfirst, hback, rfl⟩ := spells_spaced_cons.1 h
    refine ⟨before ++ (gap ++ (first ++ back)), spells_spaced_cons.2
      ⟨before ++ gap, first, back, List.forall_mem_append.2 ⟨fun c hc => ?_, hgap⟩, hfirst, hback,
        (List.append_assoc before gap _).symm⟩, after, rfl⟩
    exact haccepts c (List.mem_append_left _ (List.mem_append_left _ hc))

/-- Patterns match one after the other where the pattern matches that has them all, with gaps. -/
theorem inOrder_iff (plain : ∀ q ∈ patterns, q.isPlain = true)
    (fixed : ∀ q ∈ patterns, FixedLength q) {p : Place}
    (haccepts : ∀ c ∈ p.after, accepts c = true) :
    inOrder patterns p = true ↔
      ∃ word, (spaced accepts patterns).Spells word ∧ word <:+: p.after := by
  induction patterns generalizing p with
  | nil => exact iff_of_true rfl ⟨[], rfl, List.nil_infix⟩
  | cons pattern patterns ih =>
    obtain ⟨hplain, hplains⟩ := List.forall_mem_cons.1 plain
    obtain ⟨hfixed, hfixeds⟩ := List.forall_mem_cons.1 fixed
    rw [inOrder]
    constructor
    · intro h
      split at h
      · next e he =>
        obtain ⟨front, word, hspells, hafter⟩ := exists_of_afterFirst? he
        have hgap (c : Char) (hc : c ∈ front) : accepts c = true :=
          haccepts c (hafter ▸ List.mem_append_left _ hc)
        have hmore (c : Char) (hc : c ∈ e.after) : accepts c = true :=
          haccepts c (hafter ▸ List.mem_append_right _ (List.mem_append_right _ hc))
        obtain ⟨others, hothers, hwithin⟩ := (ih hplains hfixeds hmore).1 h
        obtain ⟨whole, hwhole, rest, hrest⟩ := exists_prefix_of_spells_spaced hothers hwithin hmore
        refine ⟨front ++ (word ++ whole), spells_spaced_cons.2
          ⟨front, word, whole, hgap, hspells, hwhole, rfl⟩, [], rest, ?_⟩
        rw [hafter, ← hrest]
        simp only [List.nil_append, List.append_assoc]
      · cases h
    · intro h
      obtain ⟨word, hspells, front, back, hafter⟩ := h
      obtain ⟨gap, first, others, -, hfirst, hothers, rfl⟩ := spells_spaced_cons.1 hspells
      obtain ⟨e, he, hsuffix⟩ := @exists_afterFirst?_of_spells _ hplain hfixed p.before
        (front ++ gap) first (others ++ back) hfirst
      have hsame : front ++ gap ++ (first ++ (others ++ back)) = p.after := by
        rw [← hafter]
        simp only [List.append_assoc]
      rw [hsame] at he
      have hrest : others <:+: e.after :=
        (List.prefix_append others back).isInfix.trans hsuffix.isInfix
      obtain ⟨passed, word, -, hpassed⟩ := exists_of_afterFirst? he
      simp only [he]
      refine (ih hplains hfixeds fun c hc => haccepts c ?_).2 ⟨others, hothers, hrest⟩
      rw [hpassed]
      exact List.mem_append_right _ (List.mem_append_right _ hc)

end CardGate.Pattern
