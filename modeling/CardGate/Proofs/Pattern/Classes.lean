import CardGate.Proofs.Pattern.Language

/-!
# The characters of a match

What a pattern spells is made up of characters of its `classes`, and it `begins` with a character
of those that come first.  Both leave out how the pattern is put together, so that they can be
computed, and say of every match which characters are not in it, or not at its front.
-/

namespace CardGate.Pattern

variable {pattern : Pattern}

theorem exists_append_of_forall₂ {α β : Type} {related : α → β → Prop} {front back : List α}
    {ds : List β}
    (h : List.Forall₂ related (front ++ back) ds) :
    ∃ here there, List.Forall₂ related front here ∧ List.Forall₂ related back there ∧
      ds = here ++ there := by
  induction front generalizing ds with
  | nil => exact ⟨[], ds, .nil, h, rfl⟩
  | cons c front ih =>
    cases h with
    | cons hc h =>
      obtain ⟨here, there, hhere, hthere, rfl⟩ := ih h
      exact ⟨_ :: here, there, .cons hc hhere, hthere, rfl⟩

/-- The classes that a pattern takes characters from. -/
def classes : Pattern → List (Char → Bool)
  | one accepts | many accepts | few accepts => [accepts]
  | seq first second | either first second => first.classes ++ second.classes
  | empty | wordEdge | textStart | textEnd => []

/-- Each character of a match is of a class of the pattern. -/
theorem exists_class_of_spells {cs : List Char} {c : Char} (h : pattern.Spells cs) (hc : c ∈ cs) :
    ∃ accepts ∈ pattern.classes, accepts c = true := by
  induction pattern generalizing cs with
  | one accepts =>
    obtain ⟨d, hd, rfl⟩ := h
    obtain rfl := List.mem_singleton.1 hc
    exact ⟨accepts, List.mem_singleton_self _, hd⟩
  | many accepts | few accepts => exact ⟨accepts, List.mem_singleton_self _, h c hc⟩
  | seq first second ihfirst ihsecond =>
    obtain ⟨front, back, hfront, hback, rfl⟩ := h
    rcases List.mem_append.1 hc with hc | hc
    · obtain ⟨accepts, hmem, haccepts⟩ := ihfirst hfront hc
      exact ⟨accepts, List.mem_append_left _ hmem, haccepts⟩
    · obtain ⟨accepts, hmem, haccepts⟩ := ihsecond hback hc
      exact ⟨accepts, List.mem_append_right _ hmem, haccepts⟩
  | either first second ihfirst ihsecond =>
    rcases h with h | h
    · obtain ⟨accepts, hmem, haccepts⟩ := ihfirst h hc
      exact ⟨accepts, List.mem_append_left _ hmem, haccepts⟩
    · obtain ⟨accepts, hmem, haccepts⟩ := ihsecond h hc
      exact ⟨accepts, List.mem_append_right _ hmem, haccepts⟩
  | empty | wordEdge | textStart | textEnd =>
    subst h
    cases hc

/-- A character that no class accepts is in no match. -/
theorem not_mem_of_spells {cs : List Char} {c : Char} (h : pattern.Spells cs)
    (hc : ∀ accepts ∈ pattern.classes, accepts c = false) : c ∉ cs := by
  intro hmem
  obtain ⟨accepts, haccepts, htrue⟩ := exists_class_of_spells h hmem
  rw [hc accepts haccepts] at htrue
  cases htrue

/-- What a pattern spells it also spells with other characters that its classes accept as well. -/
theorem spells_of_forall₂ {related : Char → Char → Prop} {cs ds : List Char}
    (h : ∀ accepts ∈ pattern.classes, ∀ c d, related c d → accepts c = true → accepts d = true)
    (hrelated : List.Forall₂ related cs ds) (hspells : pattern.Spells cs) : pattern.Spells ds := by
  induction pattern generalizing cs ds with
  | one accepts =>
    obtain ⟨c, hc, rfl⟩ := hspells
    cases hrelated with
    | cons hfirst hmore =>
      obtain rfl := List.forall₂_nil_left_iff.1 hmore
      exact ⟨_, h accepts (List.mem_singleton_self _) c _ hfirst hc, rfl⟩
  | many accepts | few accepts =>
    induction hrelated with
    | nil => exact nofun
    | cons hfirst hmore ih =>
      obtain ⟨hc, hcs⟩ := List.forall_mem_cons.1 hspells
      exact List.forall_mem_cons.2 ⟨h accepts (List.mem_singleton_self _) _ _ hfirst hc, ih hcs⟩
  | seq first second ihfirst ihsecond =>
    obtain ⟨front, back, hfront, hback, rfl⟩ := hspells
    obtain ⟨hclasses, hothers⟩ := List.forall_mem_append.1 h
    obtain ⟨here, there, hhere, hthere, rfl⟩ := exists_append_of_forall₂ hrelated
    exact ⟨here, there, ihfirst hclasses hhere hfront, ihsecond hothers hthere hback, rfl⟩
  | either first second ihfirst ihsecond =>
    obtain ⟨hclasses, hothers⟩ := List.forall_mem_append.1 h
    rcases hspells with hspells | hspells
    · exact Or.inl (ihfirst hclasses hrelated hspells)
    · exact Or.inr (ihsecond hothers hrelated hspells)
  | empty | wordEdge | textStart | textEnd =>
    subst hspells
    exact List.forall₂_nil_left_iff.1 hrelated

/-- A character that a row requires is in each of its matches. -/
theorem mem_of_spells_row {patterns : List Pattern} {cs : List Char} {c : Char}
    (h : (row patterns).Spells cs) (hc : char c ∈ patterns) : c ∈ cs := by
  induction patterns generalizing cs with
  | nil => cases hc
  | cons first more ih =>
    obtain ⟨front, back, hfront, hback, rfl⟩ := spells_row_cons.1 h
    rcases List.mem_cons.1 hc with rfl | hc
    · obtain ⟨d, hd, rfl⟩ := hfront
      rw [← beq_iff_eq.1 hd]
      exact List.mem_cons_self
    · exact List.mem_append_right front (ih hback hc)

/-- Whether a match may have a character at its front. -/
def begins : Pattern → Char → Bool
  | one accepts, c | many accepts, c | few accepts, c => accepts c
  | seq first second, c => first.begins c || (first.least == 0 && second.begins c)
  | either first second, c => first.begins c || second.begins c
  | empty, _ | wordEdge, _ | textStart, _ | textEnd, _ => false

theorem begins_of_spells {cs : List Char} {c : Char} (h : pattern.Spells (c :: cs)) :
    pattern.begins c = true := by
  induction pattern generalizing cs with
  | one accepts =>
    obtain ⟨d, hd, hcs⟩ := h
    obtain ⟨rfl, -⟩ := List.cons.inj hcs
    exact hd
  | many accepts | few accepts => exact h c List.mem_cons_self
  | seq first second ihfirst ihsecond =>
    obtain ⟨front, back, hfront, hback, hcs⟩ := h
    rw [begins, Bool.or_eq_true]
    cases front with
    | nil =>
      have hleast : first.least = 0 := Nat.le_zero.1 (least_le_of_spells hfront)
      rw [List.nil_append] at hcs
      subst hcs
      refine Or.inr ?_
      rw [hleast, ihsecond hback]
      rfl
    | cons d front =>
      obtain ⟨rfl, -⟩ := List.cons.inj hcs
      exact Or.inl (ihfirst hfront)
  | either first second ihfirst ihsecond =>
    rw [begins, Bool.or_eq_true]
    rcases h with h | h
    · exact Or.inl (ihfirst h)
    · exact Or.inr (ihsecond h)
  | empty | wordEdge | textStart | textEnd => cases h

end CardGate.Pattern
