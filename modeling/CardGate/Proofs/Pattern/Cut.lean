import CardGate.Proofs.Pattern.Language

/-!
# The pieces of a text

Cutting a text goes from piece to piece.  What comes behind some pieces is cut as it would be there
(`cut_append`), so what is known about the first piece is known about each: a match is what the
pattern prefers at its place (`found_of_cut`), and at any other character it does not match
(`other_of_cut`).

No piece is empty, and so a piece is told by where it begins (`eq_of_cut`).  If a word occurs as a
match only, it begins nowhere else in a text than there (`OccursAsMatch.eq_found_of_begins`).
-/

namespace CardGate.Pattern

variable {pattern : Pattern}

/-! ## Going on -/

theorem cutFrom_of_match {before : Option Char} {c : Char} {rest : List Char} {n : Nat}
    (h : pattern.matchLength? ⟨before, c :: rest⟩ = some (n + 1)) :
    pattern.cutFrom 0 before (c :: rest) =
      .found (c :: rest.take n) :: pattern.cutFrom n (some c) rest := by
  rw [cutFrom, h]

theorem cutFrom_of_no_match {before : Option Char} {c : Char} {rest : List Char}
    (h : ∀ n, pattern.matchLength? ⟨before, c :: rest⟩ ≠ some (n + 1)) :
    pattern.cutFrom 0 before (c :: rest) = .other c :: pattern.cutFrom 0 (some c) rest := by
  rw [cutFrom]
  split
  · next n hmatch => exact absurd hmatch (h n)
  · rfl

/-- What belongs to the last match is passed over. -/
theorem cutFrom_eq_drop (skip : Nat) (before : Option Char) (cs : List Char) :
    pattern.cutFrom skip before cs =
      pattern.cutFrom 0 ((cs.take skip).getLast?.or before) (cs.drop skip) := by
  induction cs generalizing skip before with
  | nil => simp [cutFrom]
  | cons c rest ih =>
    cases skip with
    | zero => simp
    | succ skip =>
      show pattern.cutFrom skip (some c) rest = _
      rw [ih, List.take_succ_cons, List.drop_succ_cons, getLast?_cons_or]

/-- The first piece of a text, and what is cut behind it. -/
theorem cutFrom_cons {before : Option Char} {cs : List Char} {piece : Piece} {back : List Piece}
    (h : pattern.cutFrom 0 before cs = piece :: back) :
    back = pattern.cutFrom 0 (piece.text.getLast?.or before) (back.flatMap Piece.text) := by
  have htext := pattern.flatMap_text_cutFrom 0 before cs
  rw [h, List.drop_zero, List.flatMap_cons] at htext
  cases cs with
  | nil => cases h
  | cons c rest =>
    rw [cutFrom] at h
    split at h
    · next n _ =>
      obtain ⟨rfl, rfl⟩ := List.cons.inj h
      have hback : (pattern.cutFrom n (some c) rest).flatMap Piece.text = rest.drop n :=
        pattern.flatMap_text_cutFrom n (some c) rest
      rw [hback, cutFrom_eq_drop, Piece.text, getLast?_cons_or]
    · obtain ⟨rfl, rfl⟩ := List.cons.inj h
      have hback : (pattern.cutFrom 0 (some c) rest).flatMap Piece.text = rest :=
        pattern.flatMap_text_cutFrom 0 (some c) rest
      rw [hback]
      rfl

/-- Behind some pieces a text is cut as it is there. -/
theorem cutFrom_append {before : Option Char} {cs : List Char} {front back : List Piece}
    (h : pattern.cutFrom 0 before cs = front ++ back) :
    back = pattern.cutFrom 0 ((front.flatMap Piece.text).getLast?.or before)
      (back.flatMap Piece.text) := by
  induction front generalizing before cs with
  | nil =>
    have htext := pattern.flatMap_text_cutFrom 0 before cs
    rw [h, List.drop_zero] at htext
    rw [List.nil_append] at h htext
    rw [htext]
    exact h.symm
  | cons piece front ih =>
    have hmore := ih (cutFrom_cons h).symm
    rw [List.flatMap_cons, List.getLast?_append, Option.or_assoc]
    exact hmore

theorem cut_append {cs : List Char} {front back : List Piece} (h : pattern.cut cs = front ++ back) :
    back = pattern.cutFrom 0 (front.flatMap Piece.text).getLast? (back.flatMap Piece.text) := by
  have hback := cutFrom_append h
  rwa [Option.or_none] at hback

/-! ## One piece -/

/-- A match is preferred by the pattern at its place, and spelled by it. -/
theorem found_of_cut {cs found : List Char} {front back : List Piece}
    (h : pattern.cut cs = front ++ .found found :: back) :
    found ≠ [] ∧ pattern.Spells found ∧
      ∃ q, (pattern.ends ⟨(front.flatMap Piece.text).getLast?,
          found ++ back.flatMap Piece.text⟩).head? = some q ∧ q.after = back.flatMap Piece.text := by
  have hcut := (cut_append h).symm
  rw [List.flatMap_cons, Piece.text] at hcut
  generalize (front.flatMap Piece.text).getLast? = before at hcut ⊢
  cases hcs : found ++ back.flatMap Piece.text with
  | nil =>
    rw [hcs] at hcut
    cases hcut
  | cons c rest =>
    rw [hcs, cutFrom] at hcut
    split at hcut
    · next n hmatch =>
      have hfound : found = c :: rest.take n := (Piece.found.inj (List.cons.inj hcut).1).symm
      obtain ⟨q, hq, hlength⟩ := Option.map_eq_some_iff.1 hmatch
      obtain ⟨passed, spells, hpasses⟩ := exists_spells_of_mem_ends (List.mem_of_head? hq)
      have hsplit : passed ++ q.after = found ++ back.flatMap Piece.text := by
        rw [hcs]
        exact hpasses.1.symm
      have hpassed : passed.length = found.length := by
        have hwhole : (c :: rest).length = passed.length + q.after.length := by
          rw [← hcs, ← hsplit, List.length_append]
        simp only [hfound, List.length_cons, List.length_take] at hlength hwhole ⊢
        omega
      obtain ⟨rfl, hafter⟩ := List.append_inj hsplit hpassed
      exact ⟨hfound ▸ List.cons_ne_nil _ _, spells, q, hq, hafter⟩
    · cases hcut

theorem other_of_cut {cs : List Char} {c : Char} {front back : List Piece}
    (h : pattern.cut cs = front ++ .other c :: back) (n : Nat) :
    pattern.matchLength? ⟨(front.flatMap Piece.text).getLast?, c :: back.flatMap Piece.text⟩ ≠
      some (n + 1) := by
  intro hmatch
  have hcut := (cut_append h).symm
  rw [List.flatMap_cons, Piece.text, List.singleton_append, cutFrom, hmatch] at hcut
  cases hcut

/-- A text that the pattern prefers to take as a whole is one match. -/
theorem cut_eq_found {cs : List Char} (hne : cs ≠ []) {q : Place}
    (hq : (pattern.ends (.start cs)).head? = some q) (hafter : q.after = []) :
    pattern.cut cs = [.found cs] := by
  obtain ⟨c, rest, rfl⟩ := List.exists_cons_of_ne_nil hne
  have hmatch : pattern.matchLength? (.start (c :: rest)) = some (rest.length + 1) := by
    rw [matchLength?, hq, Option.map_some, hafter]
    rfl
  rw [cut, cutFrom, show pattern.matchLength? ⟨none, c :: rest⟩ = _ from hmatch]
  show .found (c :: rest.take rest.length) :: pattern.cutFrom rest.length (some c) rest = _
  rw [List.take_length, cutFrom_eq_drop, List.drop_length]
  rfl

theorem text_ne_nil_of_mem_cut {cs : List Char} {piece : Piece} (h : piece ∈ pattern.cut cs) :
    piece.text ≠ [] := by
  cases piece with
  | other c => exact List.cons_ne_nil c []
  | found found =>
    obtain ⟨front, back, hcut⟩ := List.append_of_mem h
    exact (found_of_cut hcut).1

theorem spells_of_mem_cut {cs found : List Char} (h : .found found ∈ pattern.cut cs) :
    pattern.Spells found := by
  obtain ⟨front, back, hcut⟩ := List.append_of_mem h
  exact (found_of_cut hcut).2.1

/-- Every place of a text is within a piece. -/
theorem exists_piece_of_lt {pieces : List Piece} {i : Nat}
    (h : i < (pieces.flatMap Piece.text).length) :
    ∃ front piece back before behind, pieces = front ++ piece :: back ∧
      piece.text = before ++ behind ∧ behind ≠ [] ∧
      i = (front.flatMap Piece.text).length + before.length := by
  induction pieces generalizing i with
  | nil => cases h
  | cons piece pieces ih =>
    by_cases hi : i < piece.text.length
    · refine ⟨[], piece, pieces, piece.text.take i, piece.text.drop i, rfl,
        (List.take_append_drop i _).symm, by simpa using hi, ?_⟩
      simp [Nat.le_of_lt hi]
    · rw [List.flatMap_cons, List.length_append] at h
      obtain ⟨front, other, back, before, behind, rfl, htext, hne, hlength⟩ :=
        @ih (i - piece.text.length) (by omega)
      refine ⟨piece :: front, other, back, before, behind, rfl, htext, hne, ?_⟩
      rw [List.flatMap_cons, List.length_append]
      omega

/-- A piece that begins within another is that piece, and begins where that does. -/
theorem eq_of_cut {cs : List Char} {front back front' back' : List Piece} {piece piece' : Piece}
    (h : pattern.cut cs = front ++ piece :: back) (h' : pattern.cut cs = front' ++ piece' :: back')
    {before behind : List Char} (hpiece : piece.text = before ++ behind) (hne : behind ≠ [])
    (hbefore : front'.flatMap Piece.text = front.flatMap Piece.text ++ before) :
    piece' = piece ∧ before = [] := by
  have hlength : (front'.flatMap Piece.text).length =
      (front.flatMap Piece.text).length + before.length := by
    rw [hbefore, List.length_append]
  have hshort : before.length < piece.text.length := by
    have := List.length_pos_iff.2 hne
    rw [hpiece, List.length_append]
    omega
  rcases List.append_eq_append_iff.1 (h.symm.trans h') with
    ⟨between, rfl, hback⟩ | ⟨between, rfl, hback⟩
  · cases between with
    | nil =>
      rw [List.append_nil] at hlength
      exact ⟨(List.cons.inj hback).1.symm, List.length_eq_zero_iff.1 (by omega)⟩
    | cons other between =>
      obtain ⟨rfl, -⟩ := List.cons.inj hback
      simp only [List.flatMap_append, List.flatMap_cons, List.length_append] at hlength
      omega
  · cases between with
    | nil =>
      rw [List.append_nil] at hlength
      exact ⟨(List.cons.inj hback).1, List.length_eq_zero_iff.1 (by omega)⟩
    | cons other between =>
      have hother : other ∈ pattern.cut cs := by
        rw [h]
        simp
      have hpositive := List.length_pos_iff.2 (text_ne_nil_of_mem_cut hother)
      simp only [List.flatMap_append, List.flatMap_cons, List.length_append] at hlength
      omega

/-! ## Words that occur as matches only -/

/-- Whether every occurrence of a word in a text is a match as a whole. -/
def OccursAsMatch (pattern : Pattern) (cs word : List Char) : Prop :=
  ∀ i < cs.length, word <+: cs.drop i → ∃ k < (pattern.cut cs).length,
    (pattern.cut cs)[k]? = some (.found word) ∧
      ((pattern.cut cs).take k).flatMap Piece.text = cs.take i

instance (pattern : Pattern) (cs word : List Char) : Decidable (OccursAsMatch pattern cs word) :=
  inferInstanceAs (Decidable (∀ i < cs.length, _ → ∃ k < (pattern.cut cs).length, _ ∧ _))

theorem OccursAsMatch.exists_cut {cs word before after : List Char}
    (h : OccursAsMatch pattern cs word) (hne : word ≠ []) (hcs : cs = before ++ (word ++ after)) :
    ∃ front back, pattern.cut cs = front ++ .found word :: back ∧
      front.flatMap Piece.text = before := by
  have hlength : before.length < cs.length := by
    have := List.length_pos_iff.2 hne
    rw [hcs, List.length_append, List.length_append]
    omega
  have hoccurs : word <+: cs.drop before.length := by
    rw [hcs, List.drop_left]
    exact List.prefix_append word after
  obtain ⟨k, -, hfound, hfront⟩ := h before.length hlength hoccurs
  obtain ⟨hk, hget⟩ := List.getElem?_eq_some_iff.1 hfound
  refine ⟨(pattern.cut cs).take k, (pattern.cut cs).drop (k + 1), ?_, ?_⟩
  · rw [← hget, List.getElem_cons_drop, List.take_append_drop]
  · rw [hfront, hcs, List.take_left]

/-- Where such a word begins within a piece, the piece is the word, and both begin there. -/
theorem OccursAsMatch.eq_found_of_begins {cs word : List Char} (h : OccursAsMatch pattern cs word)
    (hword : word ≠ []) {front back : List Piece} {piece : Piece}
    (hcut : pattern.cut cs = front ++ piece :: back) {before behind : List Char}
    (hpiece : piece.text = before ++ behind) (hne : behind ≠ [])
    (hbegins : word <+: behind ++ back.flatMap Piece.text) :
    piece = .found word ∧ before = [] := by
  obtain ⟨after, hafter⟩ := hbegins
  have hcs : cs = front.flatMap Piece.text ++ before ++ (word ++ after) := by
    rw [hafter, ← pattern.flatMap_text_cut cs, hcut, List.flatMap_append, List.flatMap_cons, hpiece]
    simp only [List.append_assoc]
  obtain ⟨front', back', hcut', hfront⟩ := h.exists_cut hword hcs
  obtain ⟨heq, hbefore⟩ := eq_of_cut hcut hcut' hpiece hne hfront
  exact ⟨heq.symm, hbefore⟩

/-- A piece in which such a word occurs is the word. -/
theorem OccursAsMatch.eq_found_of_occurs {cs word : List Char} (h : OccursAsMatch pattern cs word)
    (hword : word ≠ []) {piece : Piece} (hpiece : piece ∈ pattern.cut cs)
    (hoccurs : word <:+: piece.text) : piece = .found word := by
  obtain ⟨front, back, hcut⟩ := List.append_of_mem hpiece
  obtain ⟨before, after, htext⟩ := hoccurs
  rw [List.append_assoc] at htext
  have hne : word ++ after ≠ [] := List.append_ne_nil_of_left_ne_nil hword after
  have hbegins : word <+: word ++ after ++ back.flatMap Piece.text := by
    rw [List.append_assoc]
    exact List.prefix_append _ _
  exact (h.eq_found_of_begins hword hcut htext.symm hne hbegins).1

end CardGate.Pattern
