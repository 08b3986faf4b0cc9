import CardGate.Proofs.Pattern.Spans
import CardGate.Proofs.Token.Found

/-!
# Where tagged tokens occur

A tagged token takes all that can belong to it, so the sentinel of another may stand within its tag,
and the next token may begin right behind its padding.  Still no occurrence is missed: by
`tags_scanned` each one, the sentinel with one more character, lies within one match.

An occurrence cannot begin in the sentinel of a match, which shares no part with itself, nor in its
padding.  Within the tag it goes on with characters of a tag, and the match takes all of them.
-/

namespace CardGate.TokenFormat

open Pattern

/-! ## Longest tags -/

/-- The longest tag at the front of a text, with the longest padding behind it. -/
def longestTag (cs : List Char) : List Char :=
  cs.takeWhile isTagChar ++ (cs.dropWhile isTagChar).takeWhile (· == '=')

theorem longestTag_append (cs : List Char) :
    longestTag cs ++ (cs.dropWhile isTagChar).dropWhile (· == '=') = cs := by
  rw [longestTag, List.append_assoc, List.takeWhile_append_dropWhile,
    List.takeWhile_append_dropWhile]

/-- Whether a stretch of a text is a tagged token that takes all it can. -/
structure IsLongestTag (cs : List Char) (span : Span) : Prop where
  exists_after : ∃ after, cs.drop span.start = "tok_".toList ++ after ∧
    after.takeWhile isTagChar ≠ [] ∧ span.text = "tok_".toList ++ longestTag after

/-- A match of the pattern of tagged tokens takes all it can. -/
theorem isLongestTag_of_mem_spans {cs : List Char} {span : Span}
    (h : span ∈ tagged.pattern.spans cs) : IsLongestTag cs span := by
  obtain ⟨front, back, hcut, hstart⟩ := mem_spans_iff.1 h
  obtain ⟨-, hspells, q, hq, hafter⟩ := found_of_cut hcut
  obtain ⟨c, tags, padding, hc, -, -, htext⟩ := exists_of_spells_tagged hspells
  have hdrop : cs.drop span.start = span.text ++ back.flatMap Piece.text := by
    rw [← tagged.pattern.flatMap_text_cut cs, hcut, List.flatMap_append, List.flatMap_cons, hstart,
      List.drop_left]
    rfl
  have hwhole : span.text ++ back.flatMap Piece.text =
      "tok_".toList ++ c :: (tags ++ (padding ++ back.flatMap Piece.text)) := by
    rw [htext]
    simp
  generalize tags ++ (padding ++ back.flatMap Piece.text) = rest at hwhole
  obtain ⟨q', hq', hafter'⟩ := @head?_ends_tagged (front.flatMap Piece.text).getLast? c hc rest
  rw [hwhole] at hq
  obtain rfl := Option.some.inj (hq'.symm.trans hq)
  refine ⟨c :: rest, hdrop.trans hwhole, by simp [hc], ?_⟩
  -- the match and what is behind it make up the text, and so do the longest tag and what it leaves
  have hleft := longestTag_append (c :: rest)
  rw [List.dropWhile_cons_of_pos hc, ← hafter', hafter] at hleft
  apply List.append_cancel_right
  rw [hwhole, List.append_assoc, hleft]

/-- Where a run has not stopped yet, the text goes on with a character of its class. -/
theorem accepts_of_lt_length_takeWhile {accepts : Char → Bool} {cs rest : List Char} {i : Nat}
    {c : Char} (hi : i < (cs.takeWhile accepts).length) (h : cs.drop i = c :: rest) :
    accepts c = true := by
  obtain ⟨d, more, hd⟩ := List.exists_cons_of_ne_nil (List.drop_eq_nil_iff.not.2 (Nat.not_le.2 hi))
  rw [← List.takeWhile_append_dropWhile (p := accepts) (l := cs),
    List.drop_append_of_le_length (Nat.le_of_lt hi), hd] at h
  obtain ⟨rfl, -⟩ := List.cons.inj h
  have hmem : d ∈ (cs.takeWhile accepts).drop i := hd ▸ List.mem_cons_self
  exact List.all_eq_true.1 List.all_takeWhile d (List.mem_of_mem_drop hmem)

/-! ## Occurrences -/

/-- What begins within a longest tag with a sentinel and one more character lies within the tag. -/
theorem add_five_le_length_longestTag {after rest : List Char} {j : Nat} {c : Char}
    (hj : j < (longestTag after).length) (hc : isTagChar c = true)
    (h : after.drop j = "tok_".toList ++ c :: rest) : j + 5 ≤ (longestTag after).length := by
  have hsentinel : ∀ d ∈ "tok_".toList ++ [c], isTagChar d = true :=
    List.forall_mem_append.2
      ⟨List.all_eq_true.1 (by decide), List.forall_mem_singleton.2 hc⟩
  rw [longestTag, List.length_append] at hj ⊢
  by_cases hin : j < (after.takeWhile isTagChar).length
  · have hfront : ∀ d ∈ after.take j, isTagChar d = true := by
      intro d hd
      rw [← List.takeWhile_append_dropWhile (p := isTagChar) (l := after),
        List.take_append_of_le_length (Nat.le_of_lt hin)] at hd
      exact List.all_eq_true.1 List.all_takeWhile d (List.mem_of_mem_take hd)
    have hafter : after = (after.take j ++ ("tok_".toList ++ [c])) ++ rest := by
      rw [List.append_assoc, List.append_assoc, List.singleton_append, ← h, List.take_append_drop]
    have htaken : after.takeWhile isTagChar =
        (after.take j ++ ("tok_".toList ++ [c])) ++ rest.takeWhile isTagChar := by
      rw [← List.takeWhile_append_of_pos (List.forall_mem_append.2 ⟨hfront, hsentinel⟩), ← hafter]
    have hlength := congrArg List.length htaken
    have hshort := (List.takeWhile_prefix (l := after) isTagChar).length_le
    simp only [List.length_append, List.length_take, List.length_singleton,
      show "tok_".toList.length = 4 from rfl] at hlength
    omega
  · exfalso
    -- the padding goes on with padding, not with a sentinel
    have hpadding : j - (after.takeWhile isTagChar).length <
        ((after.dropWhile isTagChar).takeWhile (· == '=')).length := by omega
    have hdrop : after.drop j =
        (after.dropWhile isTagChar).drop (j - (after.takeWhile isTagChar).length) := by
      conv_lhs => rw [← List.takeWhile_append_dropWhile (p := isTagChar) (l := after)]
      rw [List.drop_append, List.drop_eq_nil_of_le (Nat.not_lt.1 hin), List.nil_append]
    have hpad := accepts_of_lt_length_takeWhile hpadding (hdrop.symm.trans h)
    cases hpad

/-- A match that holds the beginning of an occurrence holds all of it. -/
theorem IsLongestTag.holds {cs rest : List Char} {span : Span} (h : IsLongestTag cs span) {i : Nat}
    {c : Char} (hstart : span.start ≤ i) (hstop : i < span.stop) (hc : isTagChar c = true)
    (hoccurs : cs.drop i = "tok_".toList ++ c :: rest) : i + 5 ≤ span.stop := by
  obtain ⟨after, hafter, htag, htext⟩ := h.exists_after
  obtain ⟨k, rfl⟩ := Nat.exists_eq_add_of_le hstart
  rw [← List.drop_drop, hafter] at hoccurs
  have hlength : span.text.length = 4 + (longestTag after).length := by
    rw [htext, List.length_append]
    rfl
  simp only [Span.stop, hlength] at hstop ⊢
  rcases k with _ | _ | _ | _ | j
  · have hpositive := List.length_pos_iff.2 htag
    rw [longestTag, List.length_append]
    omega
  -- the sentinel does not begin again within itself
  · cases (List.cons.inj hoccurs).1
  · cases (List.cons.inj hoccurs).1
  · cases (List.cons.inj hoccurs).1
  · have hj : after.drop j = "tok_".toList ++ c :: rest := by
      rw [← hoccurs, Nat.add_comm, ← List.drop_drop]
      rfl
    have hfive := add_five_le_length_longestTag (by omega) hc hj
    omega

/-- An occurrence lies within a match. -/
theorem exists_span_of_occurs {cs rest : List Char} {i : Nat} {c : Char} (hc : isTagChar c = true)
    (hoccurs : cs.drop i = "tok_".toList ++ c :: rest) :
    ∃ span ∈ tagged.pattern.spans cs, span.start ≤ i ∧ i + 5 ≤ span.stop := by
  have hi : i < ((tagged.pattern.cut cs).flatMap Piece.text).length := by
    rw [flatMap_text_cut]
    by_contra hlength
    rw [List.drop_eq_nil_of_le (Nat.not_lt.1 hlength)] at hoccurs
    cases hoccurs
  obtain ⟨front, piece, back, before, behind, hcut, htext, hne, rfl⟩ := exists_piece_of_lt hi
  cases piece with
  | other d =>
    obtain ⟨rfl, rfl⟩ : before = [] ∧ behind = [d] := by
      rcases List.append_eq_singleton_iff.1 htext.symm with hbehind | hbehind
      · exact hbehind
      · exact absurd hbehind.2 hne
    have hdrop : cs.drop (front.flatMap Piece.text).length = d :: back.flatMap Piece.text := by
      rw [← tagged.pattern.flatMap_text_cut cs, hcut, List.flatMap_append, List.drop_left]
      rfl
    exact absurd (hdrop.symm.trans hoccurs) (text_ne_of_other hcut hc rest)
  | found word =>
    have hmem : ⟨(front.flatMap Piece.text).length, word⟩ ∈ tagged.pattern.spans cs :=
      mem_spans_iff.2 ⟨front, back, hcut, rfl⟩
    have hlength := congrArg List.length htext
    have hpositive := List.length_pos_iff.2 hne
    rw [Piece.text, List.length_append] at hlength
    refine ⟨_, hmem, Nat.le_add_right _ _, ?_⟩
    refine (isLongestTag_of_mem_spans hmem).holds (Nat.le_add_right _ _) ?_ hc hoccurs
    simp only [Span.stop]
    omega

/-- The tagged tokens of a text are found from left to right without overlapping, each with the
longest tag and the longest padding there is, and every occurrence of a sentinel with a character of
a tag behind it lies within one of them, and only one. -/
theorem tags_scanned (cs : List Char) :
    (tagged.pattern.spans cs).map Span.text = tagged.pattern.findAll cs ∧
      ((tagged.pattern.spans cs).Pairwise fun span later => span.stop ≤ later.start) ∧
      (∀ span ∈ tagged.pattern.spans cs, IsLongestTag cs span) ∧
      ∀ i c rest, cs.drop i = "tok_".toList ++ c :: rest → isTagChar c = true →
        ∃! span, span ∈ tagged.pattern.spans cs ∧ span.start ≤ i ∧ i + 5 ≤ span.stop := by
  refine ⟨map_text_spans cs, pairwise_spans cs, fun _ => isLongestTag_of_mem_spans, ?_⟩
  intro i c rest hoccurs hc
  obtain ⟨span, hmem, hstart, hstop⟩ := exists_span_of_occurs hc hoccurs
  refine ⟨span, ⟨hmem, hstart, hstop⟩, ?_⟩
  intro other hother
  by_contra hne
  obtain ⟨hin, hbegins, hends⟩ := hother
  rcases apart_of_mem_spans hin hmem hne with hbefore | hbehind
  · omega
  · omega

/-- A sentinel within a tag lies within the token around it. -/
theorem tags_scanned_sample :
    ∃! span, span ∈ tagged.pattern.spans "a tok_tok_b==tok_c".toList ∧
      span.start ≤ 6 ∧ 6 + 5 ≤ span.stop :=
  (tags_scanned "a tok_tok_b==tok_c".toList).2.2.2 6 'b' "==tok_c".toList rfl rfl

end CardGate.TokenFormat
