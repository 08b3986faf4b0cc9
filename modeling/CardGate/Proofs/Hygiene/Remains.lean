import CardGate.Hygiene.Clean
import CardGate.Proofs.Pattern.Deletion
import CardGate.Proofs.Text.Words

/-!
# What remains of scripts

Cleaning cuts the script fragments out of a text, and detection looks for the same fragments.  A
cleaned text may still hold one: what stood on either side of a fragment is joined when it is cut
out, and may be a fragment of a kind that was looked for before (`hasScript_clean_joined`).

Nothing else remains, by `hasScript_clean`.  Every stretch of the text that was left whole is free
of fragments, no character is left that could begin a tag, and detection finds something in a
cleaned text exactly if cutting would take something out of it again.
-/

namespace CardGate.Hygiene

open Pattern

/-! ## Fragments -/

theorem plain_of_mem_scriptFragments : ∀ p ∈ scriptFragments, p.isPlain = true := by
  decide

theorem not_spells_nil_of_mem_scriptFragments : ∀ p ∈ scriptFragments, ¬ p.Spells [] := by
  have hleast : ∀ p ∈ scriptFragments, 0 < p.least := by decide
  intro p hp hspells
  have hle := least_le_of_spells hspells
  exact absurd (hleast p hp) (Nat.not_lt.2 hle)

theorem hasScript_eq_false_iff {cs : List Char} :
    hasScript cs = false ↔ ∀ p ∈ scriptFragments, p.matchesIn cs = false :=
  List.any_eq_false.trans (forall₂_congr fun _ _ => by rw [Bool.not_eq_true])

theorem hasScript_of_infix {part cs : List Char} (hpart : part <:+: cs)
    (h : hasScript part = true) : hasScript cs = true := by
  obtain ⟨p, hp, hmatches⟩ := List.any_eq_true.1 h
  exact List.any_eq_true.2
    ⟨p, hp, matchesIn_of_infix (plain_of_mem_scriptFragments p hp) hpart hmatches⟩

/-- Detection finds a fragment exactly in the texts from which cutting takes something. -/
theorem cutScripts_eq_self_iff {cs : List Char} : cutScripts cs = cs ↔ hasScript cs = false :=
  (foldl_deleteAll_eq_self_iff plain_of_mem_scriptFragments
    not_spells_nil_of_mem_scriptFragments).trans hasScript_eq_false_iff.symm

/-! ## Characters -/

/-- A character that means something in HTML outside an entity. -/
def isMarkup (c : Char) : Bool :=
  c == '<' || c == '>' || c == '"' || c == '\''

theorem isMarkup_of_mem_entity {c d : Char} (h : d ∈ entity c) : isMarkup d = false := by
  unfold entity at h
  split at h
  case h_6 =>
    rw [List.mem_singleton.1 h]
    simp_all [isMarkup]
  all_goals exact Bool.eq_false_iff.2 (List.any_eq_false.1 (by decide) d h)

theorem isMarkup_of_mem_escapeHtml {cs : List Char} {c : Char} (h : c ∈ escapeHtml cs) :
    isMarkup c = false := by
  obtain ⟨d, -, hc⟩ := List.mem_flatMap.1 h
  exact isMarkup_of_mem_entity hc

/-! ## Texts with nothing to clean -/

/-- Whether there is nothing in a text that cleaning would change: no control character, none that
is written as an entity, no fragment, and no blank at either end. -/
def isInert (cs : List Char) : Bool :=
  cs.all (fun c => isKept c && entity c == [c]) && !hasScript cs &&
    !cs.head?.any Text.isBlank && !cs.getLast?.any Text.isBlank

theorem clean_eq_self {cs : List Char} (h : isInert cs = true) : clean cs = cs := by
  simp only [isInert, Bool.and_eq_true, List.all_eq_true, beq_iff_eq, Bool.not_eq_true',
    Option.any_eq_false] at h
  obtain ⟨⟨⟨hchars, hscript⟩, hhead⟩, hlast⟩ := h
  have hkept : cs.filter isKept = cs := List.filter_eq_self.2 fun c hc => (hchars c hc).1
  have hescaped : escapeHtml cs = cs := by
    unfold escapeHtml
    rw [List.flatMap_congr fun c hc => (hchars c hc).2, List.flatMap_singleton']
  unfold clean
  rw [hkept, hescaped, cutScripts_eq_self_iff.2 hscript]
  exact Text.trim_of_ends hhead hlast

/-! ## Cleaned texts -/

/-- A cleaned text is a text written in HTML with holes where fragments were cut out, joined and
trimmed.  There are holes exactly if detection finds a fragment in the text before it is cut, no
word that is left whole holds a fragment, and no markup is left.  Detection finds a fragment in the
cleaned text only if there are holes, and exactly if cutting it again would take something. -/
theorem hasScript_clean (cs : List Char) :
    ∃ holed, Holed (escapeHtml (cs.filter isKept)) holed ∧
      clean cs = Text.trim holed.reduceOption ∧
      (none ∈ holed ↔ hasScript (escapeHtml (cs.filter isKept)) = true) ∧
      (∀ word, Whole word holed → hasScript word = false) ∧
      (∀ c ∈ clean cs, isMarkup c = false) ∧
      (hasScript (clean cs) = true → none ∈ holed) ∧
      (hasScript (clean cs) = false ↔ cutScripts (clean cs) = clean cs) := by
  obtain ⟨holed, hholed, hleft, hnone⟩ := exists_holed plain_of_mem_scriptFragments
    not_spells_nil_of_mem_scriptFragments (escapeHtml (cs.filter isKept))
  have hwhole (word : List Char) (hword : Whole word holed) : hasScript word = false :=
    hasScript_eq_false_iff.2 fun p hp => hnone p hp word hword
  have hclean : clean cs = Text.trim holed.reduceOption := congrArg Text.trim hleft
  have hholes : none ∈ holed ↔ hasScript (escapeHtml (cs.filter isKept)) = true := by
    rw [← not_iff_not, Bool.not_eq_true, ← cutScripts_eq_self_iff]
    constructor
    · intro hall
      rw [cutScripts, hleft, eq_map_some_of_holed hholed hall, reduceOption_map_some]
    · intro hself
      exact not_mem_of_reduceOption_eq hholed (hleft.symm.trans hself)
  refine ⟨holed, hholed, hclean, hholes, hwhole, fun c hc => ?_, fun h => ?_,
    cutScripts_eq_self_iff.symm⟩
  · rw [hclean] at hc
    have hkept := (Text.trim_infix holed.reduceOption).subset hc
    exact isMarkup_of_mem_escapeHtml (mem_of_mem_reduceOption hholed hkept)
  · rw [hclean] at h
    have hfound := hasScript_of_infix (Text.trim_infix holed.reduceOption) h
    by_contra hall
    have heq := eq_map_some_of_holed hholed hall
    rw [heq, reduceOption_map_some, hwhole _ (heq ▸ List.infix_rfl)] at hfound
    cases hfound

/-- A fragment that is cut out of another one leaves that one behind. -/
theorem hasScript_clean_joined :
    clean "javasonx=cript:".toList = "javascript:".toList ∧
      hasScript (clean "javasonx=cript:".toList) = true := by
  decide

end CardGate.Hygiene
