import CardGate.Pattern.Search
import Mathlib.Data.List.Forall2

/-!
# Ends of a match

`Pattern.ends` lists where a pattern can end, and `Pattern.matchesIn` tries every place of a text as
a start.  Here both are said by how the text is made up.  A row of patterns leads from one place to
the next; a row of character classes ends behind as many characters, one of each class; and a text
holds a match if it can be cut in two so that the pattern ends somewhere in the second part.
-/

namespace CardGate.Pattern

theorem ends_row_cons (first : Pattern) (more : List Pattern) (p : Place) :
    (row (first :: more)).ends p = (first.ends p).flatMap (row more).ends := by
  cases more with
  | nil =>
    rw [row, row, funext (show ∀ q, Pattern.empty.ends q = [q] from fun _ => rfl)]
    exact (List.flatMap_singleton' _).symm
  | cons second more => rfl

/-- A row of patterns ends where its parts lead, one after the other. -/
theorem mem_ends_row_cons {first : Pattern} {more : List Pattern} {p q : Place} :
    q ∈ (row (first :: more)).ends p ↔ ∃ middle ∈ first.ends p, q ∈ (row more).ends middle := by
  rw [ends_row_cons, List.mem_flatMap]

theorem mem_ends_row_nil {p q : Place} : q ∈ (row []).ends p ↔ q = p :=
  List.mem_singleton

theorem mem_ends_one {accepts : Char → Bool} {p q : Place} :
    q ∈ (one accepts).ends p ↔
      ∃ c, accepts c = true ∧ p.after = c :: q.after ∧ q.before = some c := by
  obtain ⟨before, after⟩ := p
  obtain ⟨before', after'⟩ := q
  cases after with
  | nil => simp [ends]
  | cons c rest =>
    rw [ends]
    dsimp only
    split
    · next haccepts =>
      rw [List.mem_singleton]
      constructor
      · rintro ⟨⟩
        exact ⟨c, haccepts, rfl, rfl⟩
      · rintro ⟨d, -, hafter, hbefore⟩
        cases hafter
        cases hbefore
        rfl
    · next haccepts =>
      refine iff_of_false List.not_mem_nil ?_
      rintro ⟨d, hd, hafter, -⟩
      cases hafter
      exact haccepts hd

/-- The character before a place is the last one of what was read, if anything was. -/
theorem getLast?_cons_or (c : Char) (cs : List Char) (before : Option Char) :
    (c :: cs).getLast?.or before = cs.getLast?.or (some c) := by
  rw [List.getLast?_cons]
  cases cs.getLast? <;> rfl

/-- A row of classes ends behind one character of each. -/
theorem mem_ends_row_map_one {classes : List (Char → Bool)} {p q : Place} :
    q ∈ (row (classes.map one)).ends p ↔
      ∃ cs, List.Forall₂ (fun accepts c => accepts c = true) classes cs ∧
        p.after = cs ++ q.after ∧ q.before = cs.getLast?.or p.before := by
  induction classes generalizing p with
  | nil =>
    rw [List.map_nil, mem_ends_row_nil]
    constructor
    · rintro rfl
      exact ⟨[], .nil, rfl, rfl⟩
    · rintro ⟨cs, hcs, hafter, hbefore⟩
      cases hcs
      obtain ⟨before, after⟩ := q
      cases hafter
      cases hbefore
      rfl
  | cons accepts classes ih =>
    rw [List.map_cons, mem_ends_row_cons]
    constructor
    · rintro ⟨middle, hfirst, hmore⟩
      obtain ⟨c, haccepts, hafter, hbefore⟩ := mem_ends_one.1 hfirst
      obtain ⟨cs, hcs, hrest, hlast⟩ := ih.1 hmore
      refine ⟨c :: cs, .cons haccepts hcs, ?_, ?_⟩
      · rw [hafter, hrest, List.cons_append]
      · rw [hlast, hbefore, getLast?_cons_or]
    · rintro ⟨cs, hcs, hafter, hbefore⟩
      cases hcs with
      | @cons _ c _ cs haccepts hcs =>
        refine ⟨⟨some c, cs ++ q.after⟩, mem_ends_one.2 ⟨c, haccepts, hafter, rfl⟩,
          ih.2 ⟨cs, hcs, rfl, ?_⟩⟩
        rw [hbefore, getLast?_cons_or]

/-- The classes of a literal, each of which has one character. -/
def letters (s : String) : List (Char → Bool) :=
  s.toList.map fun c d => d == c

theorem literal_eq_row (s : String) : literal s = row ((letters s).map one) := by
  rw [literal, letters, List.map_map]
  rfl

/-- Only a literal itself has a character of each of its classes. -/
theorem forall₂_letters_iff {s : String} {cs : List Char} :
    List.Forall₂ (fun accepts c => accepts c = true) (letters s) cs ↔ cs = s.toList := by
  rw [letters, List.forall₂_map_left_iff]
  constructor
  · intro h
    have hsame := h.imp fun _ _ heq => (beq_iff_eq.1 heq).symm
    exact (List.forall₂_eq_eq_eq ▸ hsame).symm
  · intro h
    rw [h, List.forall₂_same]
    exact fun c _ => beq_self_eq_true c

/-- A literal ends behind its characters. -/
theorem mem_ends_literal {s : String} {p q : Place} :
    q ∈ (literal s).ends p ↔
      p.after = s.toList ++ q.after ∧ q.before = s.toList.getLast?.or p.before := by
  rw [literal_eq_row, mem_ends_row_map_one]
  simp only [forall₂_letters_iff, exists_eq_left]

theorem forall₂_replicate_iff {α β : Type} {related : α → β → Prop} {n : Nat} {a : α} {bs : List β} :
    List.Forall₂ related (List.replicate n a) bs ↔ bs.length = n ∧ ∀ b ∈ bs, related a b := by
  induction n generalizing bs with
  | zero =>
    rw [List.replicate_zero, List.forall₂_nil_left_iff, List.length_eq_zero_iff]
    exact ⟨fun h => ⟨h, h ▸ fun _ hb => absurd hb List.not_mem_nil⟩, And.left⟩
  | succ n ih =>
    rw [List.replicate_succ]
    cases bs with
    | nil => exact iff_of_false nofun fun h => absurd h.1 (by simp)
    | cons b bs =>
      rw [List.forall₂_cons, ih, List.length_cons, Nat.add_right_cancel_iff, List.forall_mem_cons]
      exact and_left_comm

/-- A class repeated a number of times ends behind as many characters of the class. -/
theorem mem_ends_times_one {n : Nat} {accepts : Char → Bool} {p q : Place} :
    q ∈ (times n (one accepts)).ends p ↔
      ∃ cs, (cs.length = n ∧ ∀ c ∈ cs, accepts c = true) ∧ p.after = cs ++ q.after ∧
        q.before = cs.getLast?.or p.before := by
  simp only [times, ← List.map_replicate, mem_ends_row_map_one, forall₂_replicate_iff]

theorem mem_ends_wordEdge {p q : Place} : q ∈ wordEdge.ends p ↔ q = p ∧ p.atWordEdge = true := by
  rw [ends]
  split
  · next h => exact List.mem_singleton.trans (and_iff_left h).symm
  · next h => exact iff_of_false List.not_mem_nil fun hq => h hq.2

theorem isWordChar_of_isDigit {c : Char} (h : c.isDigit = true) : Text.isWordChar c = true := by
  have hle : c.toNat ≤ 57 := by
    simp only [Char.isDigit, Bool.and_eq_true, decide_eq_true_eq] at h
    exact h.2
  rw [Text.isWordChar, if_pos (by omega), Char.isAlphanum, h, Bool.or_true, Bool.true_or]

/-- Before a word character the edge of a word is where no word goes on. -/
theorem atWordEdge_of_after {p : Place} (h : p.after.head?.any Text.isWordChar = true) :
    p.atWordEdge = true ↔ ∀ c ∈ p.before, Text.isWordChar c = false := by
  rw [Place.atWordEdge, h, bne_iff_ne, ne_eq, Bool.not_eq_true, Option.any_eq_false]
  simp only [Option.mem_def]

/-- Behind a word character the edge of a word is where it does not go on. -/
theorem atWordEdge_of_before {p : Place} (h : p.before.any Text.isWordChar = true) :
    p.atWordEdge = true ↔ ∀ c ∈ p.after.head?, Text.isWordChar c = false := by
  rw [Place.atWordEdge, h, bne_iff_ne, ne_comm, ne_eq, Bool.not_eq_true, Option.any_eq_false]
  simp only [Option.mem_def]

/-- A repetition may end where it starts. -/
theorem mem_ends_many (accepts : Char → Bool) (p : Place) : p ∈ (many accepts).ends p := by
  rw [ends, List.mem_reverse]
  obtain ⟨before, after⟩ := p
  cases after <;> exact List.mem_cons_self

theorem matchesFrom_iff {pattern : Pattern} {before : Option Char} {cs : List Char} :
    pattern.matchesFrom before cs = true ↔
      ∃ front back q, cs = front ++ back ∧ q ∈ pattern.ends ⟨front.getLast?.or before, back⟩ := by
  have hhere (p : Place) : (!(pattern.ends p).isEmpty) = true ↔ ∃ q, q ∈ pattern.ends p := by
    rw [Bool.not_eq_true', List.isEmpty_eq_false_iff_exists_mem]
  induction cs generalizing before with
  | nil =>
    rw [matchesFrom, hhere]
    constructor
    · rintro ⟨q, hq⟩
      exact ⟨[], [], q, rfl, hq⟩
    · rintro ⟨front, back, q, heq, hq⟩
      obtain ⟨rfl, rfl⟩ := List.append_eq_nil_iff.1 heq.symm
      exact ⟨q, hq⟩
  | cons c rest ih =>
    rw [matchesFrom, Bool.or_eq_true, hhere]
    refine (or_congr_right ih).trans ?_
    constructor
    · rintro (⟨q, hq⟩ | ⟨front, back, q, rfl, hq⟩)
      · exact ⟨[], c :: rest, q, rfl, hq⟩
      · exact ⟨c :: front, back, q, rfl, getLast?_cons_or c front before ▸ hq⟩
    · rintro ⟨front, back, q, heq, hq⟩
      cases front with
      | nil =>
        cases heq
        exact Or.inl ⟨q, hq⟩
      | cons d front =>
        cases heq
        exact Or.inr ⟨front, back, q, rfl, getLast?_cons_or c front before ▸ hq⟩

/-- A text holds a match if a pattern ends somewhere after a part of it. -/
theorem matchesIn_iff {pattern : Pattern} {cs : List Char} :
    pattern.matchesIn cs = true ↔
      ∃ front back q, cs = front ++ back ∧ q ∈ pattern.ends ⟨front.getLast?, back⟩ := by
  simp only [matchesIn, matchesFrom_iff, Option.or_none]

end CardGate.Pattern
