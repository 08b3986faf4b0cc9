import CardGate.Text.Blank
import CardGate.Text.Case
import Mathlib.Data.List.TakeWhile

/-!
# Cutting what was joined

A text that was put together from pieces is cut at the same places: at the blanks between words
that have none, and at the first mark after a piece that has none.
-/

namespace CardGate.Text

/-! ## Fronts -/

/-- The front of two rows, one behind the other, ends in the first or holds it and more. -/
theorem prefix_append_cases {α : Type} {front first second : List α}
    (h : front <+: first ++ second) :
    front <+: first ∨ ∃ back, back ≠ [] ∧ front = first ++ back ∧ back <+: second := by
  obtain ⟨rest, hrest⟩ := h
  obtain ⟨between, hfirst, -⟩ | ⟨back, hfront, hsecond⟩ := List.append_eq_append_iff.1 hrest
  · exact Or.inl ⟨between, hfirst.symm⟩
  · by_cases hback : back = []
    · rw [hback, List.append_nil] at hfront
      exact Or.inl (hfront ▸ List.prefix_rfl)
    · exact Or.inr ⟨back, hback, hfront, rest, hsecond.symm⟩

/-! ## Words -/

theorem fields_of_none {isSeparator : Char → Bool} {piece : List Char}
    (h : ∀ c ∈ piece, isSeparator c = false) : fields isSeparator piece = [piece] := by
  induction piece with
  | nil => rfl
  | cons c piece ih =>
    have hpiece := ih fun d hd => h d (List.mem_cons_of_mem c hd)
    rw [fields, h c List.mem_cons_self, if_neg Bool.false_ne_true, hpiece]

/-- The first field ends at the first separator. -/
theorem fields_append {isSeparator : Char → Bool} {piece rest : List Char} {separator : Char}
    (h : ∀ c ∈ piece, isSeparator c = false) (hseparator : isSeparator separator = true) :
    fields isSeparator (piece ++ separator :: rest) = piece :: fields isSeparator rest := by
  induction piece with
  | nil => rw [List.nil_append, fields, if_pos hseparator]
  | cons c piece ih =>
    have hpiece := ih fun d hd => h d (List.mem_cons_of_mem c hd)
    rw [List.cons_append, fields, h c List.mem_cons_self, if_neg Bool.false_ne_true, hpiece]

/-- The first field is all in front of the first separator. -/
theorem exists_fields (isSeparator : Char → Bool) (cs : List Char) :
    ∃ more, fields isSeparator cs = cs.takeWhile (!isSeparator ·) :: more := by
  induction cs with
  | nil => exact ⟨[], rfl⟩
  | cons c rest ih =>
    obtain ⟨more, hmore⟩ := ih
    by_cases hc : isSeparator c = true
    · exact ⟨fields isSeparator rest, by simp [fields, hc]⟩
    · exact ⟨more, by simp [fields, hc, hmore]⟩

/-- A field is a part of the text that has no separator. -/
theorem infix_of_mem_fields {isSeparator : Char → Bool} {cs field : List Char}
    (h : field ∈ fields isSeparator cs) : field <:+: cs ∧ ∀ c ∈ field, isSeparator c = false := by
  induction cs generalizing field with
  | nil =>
    obtain rfl := List.mem_singleton.1 h
    exact ⟨List.infix_rfl, nofun⟩
  | cons c rest ih =>
    rw [fields] at h
    split at h
    · rcases List.mem_cons.1 h with rfl | h
      · exact ⟨List.nil_infix, nofun⟩
      · exact ⟨List.infix_cons (ih h).1, (ih h).2⟩
    · next hc =>
      obtain ⟨more, hmore⟩ := exists_fields isSeparator rest
      rw [hmore] at h ih
      rcases List.mem_cons.1 h with rfl | h
      · obtain ⟨-, hfirst⟩ := ih List.mem_cons_self
        have hfront : c :: rest.takeWhile (!isSeparator ·) <+: c :: rest :=
          List.cons_prefix_cons.2 ⟨rfl, List.takeWhile_prefix _⟩
        exact ⟨hfront.isInfix, List.forall_mem_cons.2 ⟨Bool.eq_false_iff.2 hc, hfirst⟩⟩
      · obtain ⟨hwithin, hnone⟩ := ih (List.mem_cons_of_mem _ h)
        exact ⟨List.infix_cons hwithin, hnone⟩

/-- A part of the text that has no separator lies within a field. -/
theorem exists_mem_fields_of_infix {isSeparator : Char → Bool} {cs part : List Char}
    (hpart : part <:+: cs) (h : ∀ c ∈ part, isSeparator c = false) :
    ∃ field ∈ fields isSeparator cs, part <:+: field := by
  obtain ⟨front, back, rfl⟩ := hpart
  rw [List.append_assoc]
  induction front with
  | nil =>
    obtain ⟨more, hmore⟩ := exists_fields isSeparator (part ++ back)
    rw [List.takeWhile_append_of_pos (by simpa using h)] at hmore
    exact ⟨_, hmore ▸ List.mem_cons_self, (List.prefix_append part _).isInfix⟩
  | cons c front ih =>
    obtain ⟨field, hfield, hwithin⟩ := ih
    rw [List.cons_append, fields]
    split
    · exact ⟨field, List.mem_cons_of_mem _ hfield, hwithin⟩
    · obtain ⟨more, hmore⟩ := exists_fields isSeparator (front ++ (part ++ back))
      rw [hmore] at hfield ⊢
      rcases List.mem_cons.1 hfield with rfl | hfield
      · exact ⟨_, List.mem_cons_self, List.infix_cons hwithin⟩
      · exact ⟨field, List.mem_cons_of_mem _ hfield, hwithin⟩

/-- To cut a text is to split the list of its characters. -/
theorem fields_eq_splitOnP (isSeparator : Char → Bool) (cs : List Char) :
    fields isSeparator cs = cs.splitOnP isSeparator := by
  induction cs with
  | nil => rfl
  | cons c rest ih =>
    rw [fields, List.splitOnP_cons_eq_if_modifyHead, ih]
    split
    · rfl
    · cases hrest : rest.splitOnP isSeparator with
      | nil => exact absurd hrest (List.splitOnP_ne_nil _ _)
      | cons field more => rfl

/-- The fields of a text are the pieces without the mark that it is joined of, and there are no
others. -/
theorem fields_eq_iff {mark : Char} {cs : List Char} {pieces : List (List Char)} :
    fields (· == mark) cs = pieces ↔
      pieces ≠ [] ∧ (∀ piece ∈ pieces, mark ∉ piece) ∧ [mark].intercalate pieces = cs := by
  constructor
  · rintro rfl
    refine ⟨?_, fun piece hpiece hmark => ?_, ?_⟩
    · rw [fields_eq_splitOnP]
      exact List.splitOnP_ne_nil _ _
    · have hnone := (infix_of_mem_fields hpiece).2 mark hmark
      exact absurd (beq_self_eq_true mark) (Bool.eq_false_iff.1 hnone)
    · rw [fields_eq_splitOnP]
      exact List.intercalate_splitOn mark
  · rintro ⟨hne, hplain, rfl⟩
    rw [fields_eq_splitOnP]
    exact List.splitOn_intercalate mark hplain hne

/-- Whether a text is a word: not empty, and without blanks. -/
def IsWord (cs : List Char) : Prop :=
  cs ≠ [] ∧ ∀ c ∈ cs, isBlank c = false

instance (cs : List Char) : Decidable (IsWord cs) :=
  have : Decidable (∀ c ∈ cs, isBlank c = false) := List.decidableBAll _ cs
  inferInstanceAs (Decidable (_ ∧ _))

theorem words_of_isWord {word : List Char} (h : IsWord word) : words word = [word] := by
  rw [words, fields_of_none h.2, List.filter_cons_of_pos (by simpa using h.1), List.filter_nil]

theorem words_append {word rest : List Char} (h : IsWord word) :
    words (word ++ ' ' :: rest) = word :: words rest := by
  rw [words, fields_append h.2 rfl, List.filter_cons_of_pos (by simpa using h.1), words]

/-! ## Names and values -/

theorem forall_ne_of_not_mem {mark : Char} {cs : List Char} (h : mark ∉ cs) :
    ∀ c ∈ cs, decide (c ≠ mark) = true :=
  fun _ hc => decide_eq_true (ne_of_mem_of_not_mem hc h)

/-- The parts before and after the first mark. -/
theorem splitAtFirst?_append {mark : Char} {before after : List Char} (h : mark ∉ before) :
    splitAtFirst? mark (before ++ mark :: after) = some (before, after) := by
  have hbefore := forall_ne_of_not_mem h
  rw [splitAtFirst?, List.dropWhile_append_of_pos hbefore, List.takeWhile_append_of_pos hbefore]
  simp

/-- A text without the mark has no parts. -/
theorem splitAtFirst?_of_absent {mark : Char} {cs : List Char} (h : mark ∉ cs) :
    splitAtFirst? mark cs = none := by
  rw [splitAtFirst?, List.dropWhile_eq_nil_iff.2 (forall_ne_of_not_mem h)]

/-! ## Blanks -/

/-- A blank has no case. -/
theorem toLower_of_isBlank {c : Char} (h : isBlank c = true) : c.toLower = c := by
  have hwide : ∀ d ∈ wideBlanks, (d.toLower == d) = true := List.all_eq_true.1 (by decide)
  rw [isBlank, Bool.or_eq_true, Bool.or_eq_true, Bool.and_eq_true, decide_eq_true_iff,
    decide_eq_true_iff] at h
  rcases h with (hspace | ⟨-, hlow⟩) | hmem
  · rw [beq_iff_eq.1 hspace]
    rfl
  · have hnat : c.val.toNat ≤ 13 := UInt32.le_iff_toNat_le.1 hlow
    have hsmall : ¬(65 : UInt32) ≤ c.val := by
      rw [UInt32.le_iff_toNat_le, show (65 : UInt32).toNat = 65 from rfl]
      omega
    exact dif_neg fun hrange => hsmall hrange.1
  · exact beq_iff_eq.1 (hwide c (List.contains_iff_mem.1 hmem))

/-- A blank before a text is trimmed away. -/
theorem trim_cons_blank {c : Char} (h : isBlank c = true) (cs : List Char) :
    trim (c :: cs) = trim cs := by
  rw [trim, trimLeft, List.dropWhile_cons_of_pos h, trim, trimLeft]

theorem trim_prefix_trimLeft (cs : List Char) : trim cs <+: trimLeft cs := by
  rw [← List.reverse_suffix, trim, trimRight, List.reverse_reverse]
  exact List.dropWhile_suffix _

/-- Trimming leaves a part of the text in one piece. -/
theorem trim_infix (cs : List Char) : trim cs <:+: cs :=
  (trim_prefix_trimLeft cs).isInfix.trans (List.dropWhile_suffix _).isInfix

/-- Trimming takes blanks away at both ends. -/
theorem exists_of_trim (cs : List Char) :
    ∃ before after, cs = before ++ (trim cs ++ after) ∧ (∀ c ∈ before, isBlank c = true) ∧
      ∀ c ∈ after, isBlank c = true := by
  refine ⟨cs.takeWhile isBlank, ((trimLeft cs).reverse.takeWhile isBlank).reverse, ?_,
    List.all_eq_true.1 List.all_takeWhile, fun c hc => ?_⟩
  · rw [trim, trimRight, ← List.reverse_append, List.takeWhile_append_dropWhile,
      List.reverse_reverse, trimLeft, List.takeWhile_append_dropWhile]
  · exact List.all_eq_true.1 List.all_takeWhile c (List.mem_reverse.1 hc)

theorem isBlank_of_head_dropWhile {cs : List Char} {c : Char}
    (h : c ∈ (cs.dropWhile isBlank).head?) : isBlank c = false := by
  have hhead := List.head?_dropWhile_not isBlank cs
  rwa [h] at hhead

/-- A trimmed text does not begin with a blank. -/
theorem isBlank_of_head_trim {cs : List Char} {c : Char} (h : c ∈ (trim cs).head?) :
    isBlank c = false := by
  obtain ⟨rest, hrest⟩ := trim_prefix_trimLeft cs
  apply @isBlank_of_head_dropWhile cs
  show (trimLeft cs).head? = some c
  rw [← hrest, List.head?_append, h, Option.some_or]

/-- A trimmed text does not end with a blank. -/
theorem isBlank_of_getLast_trim {cs : List Char} {c : Char} (h : c ∈ (trim cs).getLast?) :
    isBlank c = false := by
  rw [trim, trimRight, List.getLast?_reverse] at h
  exact isBlank_of_head_dropWhile h

theorem dropWhile_of_head {cs : List Char} (h : ∀ c ∈ cs.head?, isBlank c = false) :
    cs.dropWhile isBlank = cs := by
  cases cs with
  | nil => rfl
  | cons c cs => rw [List.dropWhile_cons_of_neg (by simp [h c rfl])]

/-- If blanks are written as themselves, and other characters with no blank in front, blanks can as
well be dropped before a text is written. -/
theorem dropWhile_flatMap {f : Char → List Char} (hblank : ∀ c, isBlank c = true → f c = [c])
    (hother : ∀ c, isBlank c = false → (f c).head?.any (!isBlank ·) = true)
    (cs : List Char) :
    (cs.flatMap f).dropWhile isBlank = (cs.dropWhile isBlank).flatMap f := by
  induction cs with
  | nil => rfl
  | cons c cs ih =>
    rw [List.flatMap_cons]
    by_cases hc : isBlank c = true
    · rw [hblank c hc, List.singleton_append, List.dropWhile_cons_of_pos hc, ih,
        List.dropWhile_cons_of_pos hc]
    · obtain ⟨d, hd, hnot⟩ := Option.any_eq_true _ _ |>.1 (hother c (Bool.eq_false_iff.2 hc))
      rw [List.dropWhile_cons_of_neg hc, List.flatMap_cons]
      apply dropWhile_of_head
      intro e he
      rw [List.head?_append, hd, Option.some_or] at he
      cases he
      simpa using hnot

/-- Blanks are trimmed away on both sides of a text without a blank at either end. -/
theorem trim_blanks {before core after : List Char} (hne : core ≠ [])
    (hbefore : ∀ c ∈ before, isBlank c = true) (hafter : ∀ c ∈ after, isBlank c = true)
    (hhead : ∀ c ∈ core.head?, isBlank c = false)
    (hlast : ∀ c ∈ core.getLast?, isBlank c = false) :
    trim (before ++ (core ++ after)) = core := by
  have hleft : trimLeft (before ++ (core ++ after)) = core ++ after := by
    obtain ⟨c, core, rfl⟩ := List.exists_cons_of_ne_nil hne
    rw [trimLeft, List.dropWhile_append_of_pos hbefore]
    exact dropWhile_of_head hhead
  rw [← List.head?_reverse] at hlast
  rw [trim, hleft, trimRight, List.reverse_append, List.dropWhile_append_of_pos,
    dropWhile_of_head hlast, List.reverse_reverse]
  exact fun c hc => hafter c (List.mem_reverse.1 hc)

/-- Nothing is trimmed from a text without a blank at either end. -/
theorem trim_of_ends {cs : List Char} (hhead : ∀ c ∈ cs.head?, isBlank c = false)
    (hlast : ∀ c ∈ cs.getLast?, isBlank c = false) : trim cs = cs := by
  rw [← List.head?_reverse] at hlast
  rw [trim, trimLeft, dropWhile_of_head hhead, trimRight, dropWhile_of_head hlast,
    List.reverse_reverse]

theorem trim_trim (cs : List Char) : trim (trim cs) = trim cs :=
  trim_of_ends (fun _ => isBlank_of_head_trim) fun _ => isBlank_of_getLast_trim

/-- Nothing is left of a text if it is all blanks. -/
theorem trim_eq_nil_iff {cs : List Char} : trim cs = [] ↔ ∀ c ∈ cs, isBlank c = true := by
  constructor
  · intro h
    obtain ⟨before, after, hcs, hbefore, hafter⟩ := exists_of_trim cs
    rw [hcs, h, List.nil_append]
    exact List.forall_mem_append.2 ⟨hbefore, hafter⟩
  · intro h
    cases htrim : trim cs with
    | nil => rfl
    | cons c rest =>
      have hhead : c ∈ (trim cs).head? := by
        rw [htrim]
        rfl
      have hwithin := trim_infix cs
      have hmem : c ∈ cs := hwithin.subset (List.mem_of_head? hhead)
      exact absurd (isBlank_of_head_trim hhead) (Bool.ne_false_iff.2 (h c hmem))

theorem trim_of_none {cs : List Char} (h : ∀ c ∈ cs, isBlank c = false) : trim cs = cs :=
  trim_of_ends (fun c hc => h c (List.mem_of_head? hc)) fun c hc => h c (List.mem_of_getLast? hc)

theorem toList_trimmed {s : String} (h : trimmed s = s) : trim s.toList = s.toList := by
  rw [trimmed] at h
  rw [← String.toList_ofList (l := trim s.toList), h]

end CardGate.Text
