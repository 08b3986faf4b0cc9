import CardGate.Proofs.Pattern.Language
import Mathlib.Data.List.Induction
import Mathlib.Data.List.ReduceOption

/-!
# What deleting leaves

Deleting the matches of a pattern joins what stood on either side of each, so the text that is left
may hold matches again.  To say which, the places of the deleted characters are kept: `Holed` texts
have a hole for each of them, and a word is `Whole` in such a text if there is no hole in it.

A plain pattern matches in no word that its own deletion leaves whole (`matchesIn_of_whole_gaps`).
This carries over to several deletions, one after the other, by `exists_holed`: whatever matches in
the end was put together from parts.
-/

namespace CardGate

/-- Whether a row of characters and holes is a given text with holes in it. -/
def Holed (cs : List Char) (holed : List (Option Char)) : Prop :=
  List.Forall₂ (fun c hole => hole = none ∨ hole = some c) cs holed

/-- Whether a word stands in a text with holes, with no hole within. -/
def Whole (word : List Char) (holed : List (Option Char)) : Prop :=
  word.map some <:+: holed

/-! ## Texts with holes -/

theorem holed_append {cs ds : List Char} {holed more : List (Option Char)} (h : Holed cs holed)
    (hmore : Holed ds more) : Holed (cs ++ ds) (holed ++ more) :=
  List.rel_append h hmore

/-- A text that is left whole at the front is there. -/
theorem exists_append_of_holed {cs word : List Char} {more : List (Option Char)}
    (h : Holed cs (word.map some ++ more)) : ∃ rest, cs = word ++ rest := by
  induction word generalizing cs with
  | nil => exact ⟨cs, rfl⟩
  | cons c word ih =>
    cases h with
    | cons hc h =>
      obtain ⟨rest, rfl⟩ := ih h
      obtain hc | hc := hc
      · cases hc
      · cases hc
        exact ⟨rest, rfl⟩

theorem whole_of_infix {part word : List Char} {holed : List (Option Char)} (h : Whole word holed)
    (hpart : part <:+: word) : Whole part holed :=
  (hpart.map some).trans h

theorem mem_of_mem_reduceOption {cs : List Char} {holed : List (Option Char)} {c : Char}
    (h : Holed cs holed) (hc : c ∈ holed.reduceOption) : c ∈ cs := by
  rw [List.reduceOption_mem_iff] at hc
  induction h with
  | nil => exact absurd hc List.not_mem_nil
  | cons hd h ih =>
    obtain rfl | hc := List.mem_cons.1 hc
    · obtain hd | hd := hd
      · cases hd
      · exact Option.some.inj hd ▸ List.mem_cons_self
    · exact List.mem_cons_of_mem _ (ih hc)

/-- Without a hole everything is left. -/
theorem eq_map_some_of_holed {cs : List Char} {holed : List (Option Char)} (h : Holed cs holed)
    (hnone : none ∉ holed) : holed = cs.map some := by
  induction h with
  | nil => rfl
  | cons hc h ih =>
    rw [List.mem_cons, not_or] at hnone
    obtain hc | hc := hc
    · exact absurd hc.symm hnone.1
    · rw [hc, ih hnone.2, List.map_cons]

theorem reduceOption_map_some (cs : List Char) : (cs.map some).reduceOption = cs := by
  induction cs with
  | nil => rfl
  | cons c cs ih => rw [List.map_cons, List.reduceOption_cons_of_some, ih]

/-- If all is left, there is no hole. -/
theorem not_mem_of_reduceOption_eq {cs : List Char} {holed : List (Option Char)}
    (h : Holed cs holed) (hleft : holed.reduceOption = cs) : none ∉ holed := by
  intro hnone
  have hlength : holed.reduceOption.length = holed.length := by rw [hleft, h.length_eq]
  have hall := List.reduceOption_length_eq_iff.1 hlength none hnone
  cases hall

/-- A word that is whole begins behind the first hole, if it is not empty. -/
theorem eq_nil_of_prefix_none {word : List Char} {holed : List (Option Char)}
    (h : word.map some <+: none :: holed) : word = [] := by
  cases word with
  | nil => rfl
  | cons c word => cases (List.cons_prefix_cons.1 h).1

/-- A word that is whole in a longer row begins at its head or is whole behind it. -/
theorem whole_cons_iff {hole : Option Char} {word : List Char} {holed : List (Option Char)} :
    Whole word (hole :: holed) ↔ word.map some <+: hole :: holed ∨ Whole word holed :=
  List.infix_cons_iff

/-- Whether a text with holes is made from another by making holes in what was left of it, so that
`more` became of that.  Words that are whole in it are then whole in both. -/
structure Refines (filled holed more : List (Option Char)) : Prop where
  left : filled.reduceOption = more.reduceOption
  front : ∀ word : List Char, word.map some <+: filled →
    word.map some <+: holed ∧ word.map some <+: more
  whole : ∀ word, Whole word filled → Whole word holed ∧ Whole word more

theorem Refines.nil : Refines [] [] [] :=
  ⟨rfl, fun _ h => ⟨h, h⟩, fun _ h => ⟨h, h⟩⟩

/-- A hole stays a hole. -/
theorem Refines.cons_none {filled holed more : List (Option Char)} (h : Refines filled holed more) :
    Refines (none :: filled) (none :: holed) more where
  left := by rw [List.reduceOption_cons_of_none, h.left]
  front word hword := by
    rw [eq_nil_of_prefix_none hword]
    exact ⟨List.nil_prefix, List.nil_prefix⟩
  whole word hword := by
    obtain hword | hword := whole_cons_iff.1 hword
    · rw [eq_nil_of_prefix_none hword]
      exact ⟨List.nil_infix, List.nil_infix⟩
    · exact ⟨whole_cons_iff.2 (Or.inr (h.whole word hword).1), (h.whole word hword).2⟩

/-- A character that was left is left again or not. -/
theorem Refines.cons_some {filled holed more : List (Option Char)} (h : Refines filled holed more)
    {c : Char} {hole : Option Char} (hc : hole = none ∨ hole = some c) :
    Refines (hole :: filled) (some c :: holed) (hole :: more) where
  left := by
    obtain rfl | rfl := hc
    · rw [List.reduceOption_cons_of_none, List.reduceOption_cons_of_none, h.left]
    · rw [List.reduceOption_cons_of_some, List.reduceOption_cons_of_some, h.left]
  front := front
  whole word hword := by
    obtain hword | hword := whole_cons_iff.1 hword
    · exact ⟨whole_cons_iff.2 (Or.inl (front word hword).1),
        whole_cons_iff.2 (Or.inl (front word hword).2)⟩
    · exact ⟨whole_cons_iff.2 (Or.inr (h.whole word hword).1),
        whole_cons_iff.2 (Or.inr (h.whole word hword).2)⟩
where
  front (word : List Char) (hword : word.map some <+: hole :: filled) :
      word.map some <+: some c :: holed ∧ word.map some <+: hole :: more := by
    cases word with
    | nil => exact ⟨List.nil_prefix, List.nil_prefix⟩
    | cons d word =>
      obtain ⟨hd, hword⟩ := List.cons_prefix_cons.1 hword
      obtain ⟨hholed, hmore⟩ := h.front word hword
      obtain rfl | rfl := hc
      · cases hd
      · exact ⟨List.cons_prefix_cons.2 ⟨hd, hholed⟩, List.cons_prefix_cons.2 ⟨hd, hmore⟩⟩

/-- Holes in what is left of a text with holes are holes in the text. -/
theorem exists_refines {cs : List Char} {holed more : List (Option Char)} (h : Holed cs holed)
    (hmore : Holed holed.reduceOption more) :
    ∃ filled, Holed cs filled ∧ Refines filled holed more := by
  induction h generalizing more with
  | nil =>
    cases hmore
    exact ⟨[], .nil, .nil⟩
  | @cons c hole cs holed hc h ih =>
    obtain rfl | rfl := hc
    · rw [List.reduceOption_cons_of_none] at hmore
      obtain ⟨filled, hfilled, hrefines⟩ := ih hmore
      exact ⟨none :: filled, .cons (Or.inl rfl) hfilled, hrefines.cons_none⟩
    · rw [List.reduceOption_cons_of_some] at hmore
      cases hmore with
      | cons ho hmore =>
        obtain ⟨filled, hfilled, hrefines⟩ := ih hmore
        exact ⟨_, .cons ho hfilled, hrefines.cons_some ho⟩

/-! ## One deletion -/

/-- The characters of a piece, with a hole for each that is left out if matches are. -/
def Piece.gaps : Piece → List (Option Char)
  | other c => [some c]
  | found cs => cs.map fun _ => none

namespace Pattern

variable {pattern : Pattern}

theorem holed_gaps (pieces : List Piece) :
    Holed (pieces.flatMap Piece.text) (pieces.flatMap Piece.gaps) := by
  induction pieces with
  | nil => exact .nil
  | cons piece pieces ih =>
    rw [List.flatMap_cons, List.flatMap_cons]
    refine holed_append ?_ ih
    cases piece with
    | other c => exact .cons (Or.inr rfl) .nil
    | found cs =>
      refine List.forall₂_map_right_iff.2 (List.forall₂_same.2 fun c _ => Or.inl rfl)

theorem reduceOption_gaps_found (cs : List Char) : (Piece.gaps (.found cs)).reduceOption = [] := by
  rw [Piece.gaps, List.map_const', List.reduceOption_replicate_none]

theorem reduceOption_gaps (cs : List Char) :
    ((pattern.cut cs).flatMap Piece.gaps).reduceOption = pattern.deleteAll cs := by
  rw [deleteAll]
  induction pattern.cut cs with
  | nil => rfl
  | cons piece pieces ih =>
    rw [List.flatMap_cons, List.flatMap_cons, List.reduceOption_append, ih]
    cases piece with
    | other c => rfl
    | found cs => rw [reduceOption_gaps_found]

/-- Where a plain pattern spells a word, a search from there matches more than nothing. -/
theorem matchLength?_ne_zero (plain : pattern.isPlain = true) (proper : ¬ pattern.Spells [])
    {word : List Char} (hspells : pattern.Spells word) (before : Option Char)
    (rest : List Char) :
    ∃ n, pattern.matchLength? ⟨before, word ++ rest⟩ = some (n + 1) := by
  obtain ⟨first, hfirst⟩ := exists_head?_ends_of_spells plain hspells before rest
  obtain ⟨passed, hpassed, hafter, -⟩ := exists_spells_of_mem_ends (List.mem_of_head? hfirst)
  rw [matchLength?, hfirst, Option.map_some]
  cases passed with
  | nil => exact absurd hpassed proper
  | cons c passed =>
    dsimp only at hafter
    refine ⟨passed.length, congrArg some ?_⟩
    rw [hafter, List.length_append, Nat.add_sub_cancel, List.length_cons]

/-- No word that a plain pattern spells is left whole when its matches are left out: where it begins
the search would have matched. -/
theorem not_spells_of_gaps (plain : pattern.isPlain = true) (proper : ¬ pattern.Spells [])
    {skip : Nat} {before : Option Char} {cs word : List Char} {front back : List (Option Char)}
    (h : (pattern.cutFrom skip before cs).flatMap Piece.gaps =
      front ++ (word.map some ++ back)) : ¬ pattern.Spells word := by
  intro hspells
  obtain _ | ⟨d, word⟩ := word
  · exact proper hspells
  rw [List.map_cons] at h
  induction cs generalizing skip before front with
  | nil =>
    obtain ⟨-, hword⟩ := List.append_eq_nil_iff.1 h.symm
    cases hword
  | cons c rest ih =>
    unfold cutFrom at h
    split at h
    · exact ih h
    · split at h
      · next n hmatch =>
        rw [List.flatMap_cons] at h
        -- the match leaves holes, so the word lies behind it
        obtain ⟨holes, -, hmore⟩ | ⟨holes, hholes, hmore⟩ := List.append_eq_append_iff.1 h
        · exact ih hmore
        · cases holes with
          | nil => exact ih (hmore.symm.trans (List.nil_append _).symm)
          | cons hole holes =>
            obtain ⟨rfl, -⟩ := List.cons.inj hmore
            have hmem : some d ∈ Piece.gaps (.found (c :: rest.take n)) :=
              hholes ▸ List.mem_append_right front List.mem_cons_self
            obtain ⟨_, -, hnone⟩ := List.mem_map.1 hmem
            cases hnone
      · next hmatch =>
        rw [List.flatMap_cons] at h
        cases front with
        | nil =>
          obtain ⟨hc, hmore⟩ := List.cons.inj h
          obtain rfl := Option.some.inj hc
          have hholed := holed_gaps (pattern.cutFrom 0 (some c) rest)
          rw [flatMap_text_cutFrom, List.drop_zero,
            show (pattern.cutFrom 0 (some c) rest).flatMap Piece.gaps = word.map some ++ back
              from hmore] at hholed
          obtain ⟨behind, rfl⟩ := exists_append_of_holed hholed
          obtain ⟨n, hlength⟩ := matchLength?_ne_zero plain proper hspells before behind
          exact hmatch n hlength
        | cons hole front => exact ih (List.cons.inj h).2

/-- What a plain pattern leaves whole it does not match in. -/
theorem matchesIn_of_whole_gaps (plain : pattern.isPlain = true) (proper : ¬ pattern.Spells [])
    {cs word : List Char} (h : Whole word ((pattern.cut cs).flatMap Piece.gaps)) :
    pattern.matchesIn word = false := by
  rw [← Bool.not_eq_true, matchesIn_iff_spells plain]
  intro hmatches
  obtain ⟨part, hspells, hpart⟩ := hmatches
  obtain ⟨front, back, hwhole⟩ := whole_of_infix h hpart
  rw [List.append_assoc] at hwhole
  exact not_spells_of_gaps plain proper hwhole.symm hspells

/-! ## One deletion after the other -/

/-- After the matches of plain patterns are left out, one pattern after the other, none of the
patterns matches in a word that is left whole. -/
theorem exists_holed {patterns : List Pattern} (plain : ∀ p ∈ patterns, p.isPlain = true)
    (proper : ∀ p ∈ patterns, ¬ p.Spells []) (cs : List Char) :
    ∃ holed, Holed cs holed ∧
      patterns.foldl (fun text p => p.deleteAll text) cs = holed.reduceOption ∧
      ∀ p ∈ patterns, ∀ word, Whole word holed → p.matchesIn word = false := by
  induction patterns using List.reverseRecOn with
  | nil =>
    refine ⟨cs.map some, ?_, (reduceOption_map_some cs).symm, nofun⟩
    exact List.forall₂_map_right_iff.2 (List.forall₂_same.2 fun c _ => Or.inr rfl)
  | append_singleton patterns last ih =>
    rw [List.forall_mem_append, List.forall_mem_singleton] at plain proper
    obtain ⟨holed, hholed, hleft, hnone⟩ := ih plain.1 proper.1
    have hgaps := holed_gaps (last.cut holed.reduceOption)
    rw [flatMap_text_cut] at hgaps
    obtain ⟨filled, hfilled, hrefines⟩ := exists_refines hholed hgaps
    refine ⟨filled, hfilled, ?_, List.forall_mem_append.2 ⟨?_, List.forall_mem_singleton.2 ?_⟩⟩
    · rw [List.foldl_append, hleft, hrefines.left, reduceOption_gaps]
      rfl
    · intro p hp word hword
      exact hnone p hp word (hrefines.whole word hword).1
    · intro word hword
      exact matchesIn_of_whole_gaps plain.2 proper.2 (hrefines.whole word hword).2

/-! ## Deleting nothing -/

theorem cutFrom_of_matchesFrom_eq_false {before : Option Char} {cs : List Char}
    (h : pattern.matchesFrom before cs = false) :
    pattern.cutFrom 0 before cs = cs.map Piece.other := by
  induction cs generalizing before with
  | nil => rfl
  | cons c rest ih =>
    rw [matchesFrom, Bool.or_eq_false_iff, Bool.not_eq_false', List.isEmpty_iff] at h
    rw [cutFrom, matchLength?, h.1, ih h.2]
    rfl

/-- A pattern that matches nowhere leaves a text as it is. -/
theorem deleteAll_of_matchesIn_eq_false {cs : List Char} (h : pattern.matchesIn cs = false) :
    pattern.deleteAll cs = cs := by
  rw [deleteAll, cut, cutFrom_of_matchesFrom_eq_false h, List.flatMap_map]
  exact List.flatMap_singleton' cs

/-- Plain patterns leave a text as it is if none of them matches in it, and only then. -/
theorem foldl_deleteAll_eq_self_iff {patterns : List Pattern}
    (plain : ∀ p ∈ patterns, p.isPlain = true) (proper : ∀ p ∈ patterns, ¬ p.Spells [])
    {cs : List Char} :
    patterns.foldl (fun text p => p.deleteAll text) cs = cs ↔
      ∀ p ∈ patterns, p.matchesIn cs = false := by
  constructor
  · intro h
    obtain ⟨holed, hholed, hleft, hnone⟩ := exists_holed plain proper cs
    have hall := eq_map_some_of_holed hholed
      (not_mem_of_reduceOption_eq hholed (hleft.symm.trans h))
    intro p hp
    exact hnone p hp cs (hall ▸ List.infix_rfl)
  · intro h
    clear plain proper
    induction patterns with
    | nil => rfl
    | cons p patterns ih =>
      obtain ⟨hp, hpatterns⟩ := List.forall_mem_cons.1 h
      rw [List.foldl_cons, deleteAll_of_matchesIn_eq_false hp, ih hpatterns]

end Pattern

end CardGate
