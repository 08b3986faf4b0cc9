import CardGate.Text.Replace

/-!
# Replacing a word in segments

A text is given in segments, and a word is replaced in it.  If no occurrence of the word that begins
in a segment goes on behind it, then replacing it in the text is replacing it in each segment
(`replaceWord_flatMap`).

What becomes of a segment is known if it is the word (`replaceWord_self`) and if the word does not
occur in it (`replaceWord_of_absent`).
-/

namespace CardGate.Text

/-- A text all of which belongs to the last occurrence. -/
theorem replaceFrom_length (word replacement cs : List Char) :
    replaceFrom word replacement cs.length cs = [] := by
  induction cs with
  | nil => rfl
  | cons c rest ih =>
    rw [List.length_cons, replaceFrom]
    exact ih

theorem replaceWord_self {word : List Char} (hne : word ≠ []) (replacement : List Char) :
    replaceWord word replacement word = replacement := by
  obtain ⟨c, more, rfl⟩ := List.exists_cons_of_ne_nil hne
  have hbegins : (c :: more).isPrefixOf (c :: more) = true :=
    List.isPrefixOf_iff_prefix.2 List.prefix_rfl
  unfold replaceWord replaceFrom
  rw [if_pos hbegins]
  simp [replaceFrom_length]

theorem replaceWord_of_absent {word cs : List Char} (h : ¬word <:+: cs)
    (replacement : List Char) : replaceWord word replacement cs = cs := by
  unfold replaceWord
  induction cs with
  | nil => rfl
  | cons c rest ih =>
    have hhere : ¬word.isPrefixOf (c :: rest) = true := by
      rw [List.isPrefixOf_iff_prefix]
      intro hfront
      exact h hfront.isInfix
    have hthere : ¬word <:+: rest := by
      intro hoccurs
      exact h (hoccurs.trans (List.suffix_cons c rest).isInfix)
    rw [replaceFrom, if_neg hhere, ih hthere]

/-- A word is replaced in two texts one behind the other if none of its occurrences goes on from the
first into the second. -/
theorem replaceFrom_append {word first second : List Char} (replacement : List Char)
    (within : ∀ front back, first = front ++ back → back ≠ [] → word <+: back ++ second →
      word <+: back) {skip : Nat} (hskip : skip ≤ first.length) :
    replaceFrom word replacement skip (first ++ second) =
      replaceFrom word replacement skip first ++ replaceFrom word replacement 0 second := by
  induction first generalizing skip with
  | nil =>
    rw [Nat.le_zero.1 hskip]
    rfl
  | cons c rest ih =>
    have hwithin (front back : List Char) (heq : rest = front ++ back) :=
      within (c :: front) back (by rw [heq]; rfl)
    rw [List.length_cons] at hskip
    cases skip with
    | succ skip =>
      rw [List.cons_append, replaceFrom, replaceFrom]
      exact ih hwithin (by omega)
    | zero =>
      have hbegins : word <+: c :: (rest ++ second) ↔ word <+: c :: rest := by
        constructor
        · exact within [] (c :: rest) rfl (List.cons_ne_nil c rest)
        · intro hfront
          exact hfront.trans (List.prefix_append (c :: rest) second)
      simp only [List.cons_append, replaceFrom, List.isPrefixOf_iff_prefix, hbegins]
      split
      · next hfront =>
        have hlength := hfront.length_le
        rw [List.length_cons] at hlength
        rw [ih hwithin (by omega), List.append_assoc]
      · rw [ih hwithin (Nat.zero_le _)]
        rfl

/-- A word is replaced in each segment of a text if none of its occurrences goes on behind the
segment it begins in. -/
theorem replaceWord_flatMap {α : Type} {word : List Char} (replacement : List Char)
    {view : α → List Char} {segments : List α}
    (within : ∀ before segment after, segments = before ++ segment :: after →
      ∀ front back, view segment = front ++ back → back ≠ [] →
        word <+: back ++ after.flatMap view → word <+: back) :
    replaceWord word replacement (segments.flatMap view) =
      segments.flatMap fun segment => replaceWord word replacement (view segment) := by
  induction segments with
  | nil => rfl
  | cons segment segments ih =>
    have hmore := ih fun before other after heq =>
      within (segment :: before) other after (by rw [heq]; rfl)
    rw [List.flatMap_cons, List.flatMap_cons, ← hmore]
    exact replaceFrom_append replacement (within [] segment segments rfl) (Nat.zero_le _)

end CardGate.Text
