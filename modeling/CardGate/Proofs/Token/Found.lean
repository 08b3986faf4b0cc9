import CardGate.Proofs.Pattern.Cut
import CardGate.Proofs.Token.Shape

/-!
# Tokens among the pieces of a text

Where the tokens of a format are found in a text, each ends where it must: a tagged token takes all
that looks like a part of it, and no word goes on at either end of a numeric one.

So a token that is found keeps its distance from all others.  If another text is put in its place,
no token begins in front of it and runs into that text (`not_begins_before_found`), and none begins
within that text and runs on behind it (`not_goes_on_behind_found`).  A numeric token is kept apart
by the edges of its word whatever the text is.  A tagged one has no such edges, and the text must
not begin with what may follow the front of a tagged token, and must not hold its first character.
-/

namespace CardGate.TokenFormat

open Pattern

/-- The tokens of a text are its matches. -/
theorem mem_tokensIn_iff {format : TokenFormat} {text token : String} :
    token ∈ format.tokensIn text ↔ .found token.toList ∈ format.pattern.cut text.toList := by
  unfold tokensIn findAll
  rw [List.mem_map]
  constructor
  · intro h
    obtain ⟨cs, hcs, rfl⟩ := h
    obtain ⟨piece, hpiece, hfound⟩ := List.mem_filterMap.1 hcs
    cases piece with
    | other c => cases hfound
    | found cs =>
      cases hfound
      rwa [String.toList_ofList]
  · intro h
    exact ⟨token.toList, List.mem_filterMap.2 ⟨_, h, rfl⟩, String.ofList_toList⟩

/-! ## What tokens are spelled like -/

/-- A tagged token is its sentinel, at least one character of a tag, and padding. -/
theorem exists_of_spells_tagged {token : List Char} (h : tagged.pattern.Spells token) :
    ∃ c tags padding, isTagChar c = true ∧ (∀ d ∈ tags, isTagChar d = true) ∧
      (∀ d ∈ padding, d = '=') ∧ token = "tok_".toList ++ (c :: tags ++ padding) := by
  obtain ⟨sentinel, more, hsentinel, hmore, rfl⟩ := spells_row_cons.1 h
  obtain ⟨tag, padding, ⟨first, tags, ⟨c, hc, rfl⟩, htags, rfl⟩, hpadding, rfl⟩ :=
    spells_row_cons.1 hmore
  refine ⟨c, tags, padding, hc, htags, fun d hd => beq_iff_eq.1 (hpadding d hd), ?_⟩
  rw [spells_literal.1 hsentinel]
  rfl

/-- A numeric token is digits. -/
theorem exists_of_spells_numeric {token : List Char} (h : numeric.pattern.Spells token) :
    ∃ digits : List Char, (∀ d ∈ digits, d.isDigit = true) ∧ token = "9999".toList ++ digits := by
  obtain ⟨start, word, rfl, hword, rfl⟩ := spells_row_cons.1 h
  obtain ⟨sentinel, more, hsentinel, hmore, rfl⟩ := spells_row_cons.1 hword
  obtain ⟨digits, stop, hdigits, rfl, rfl⟩ := spells_row_cons.1 hmore
  refine ⟨digits, (spells_times_one.1 hdigits).2, ?_⟩
  rw [spells_literal.1 hsentinel, List.append_nil]

theorem isDigit_of_spells_numeric {token : List Char} (h : numeric.pattern.Spells token) :
    ∀ d ∈ token, d.isDigit = true := by
  obtain ⟨digits, hdigits, rfl⟩ := exists_of_spells_numeric h
  have hsentinel : "9999".toList.all Char.isDigit = true := by decide
  exact List.forall_mem_append.2 ⟨List.all_eq_true.1 hsentinel, hdigits⟩

/-! ## Tagged tokens -/

/-- In front of a character that is none of its sentinel or padding, a tagged token that has begun is
its sentinel and characters of its tag. -/
theorem exists_of_spells_tagged_front {stretch rest : List Char} {c : Char}
    (h : tagged.pattern.Spells (stretch ++ c :: rest)) (hne : stretch ≠ [])
    (hc : c ∉ "ok_=".toList) :
    ∃ tags, (∀ d ∈ tags, isTagChar d = true) ∧ stretch = "tok_".toList ++ tags := by
  obtain ⟨first, tags, padding, hfirst, htags, hpadding, htoken⟩ := exists_of_spells_tagged h
  have htag : ∀ d ∈ first :: tags, isTagChar d = true := List.forall_mem_cons.2 ⟨hfirst, htags⟩
  rcases List.append_eq_append_iff.1 htoken with ⟨between, hsentinel, hmore⟩ | ⟨front, rfl, hmore⟩
  · cases between with
    | nil =>
      rw [List.append_nil] at hsentinel
      exact ⟨[], nofun, by rw [hsentinel, List.append_nil]⟩
    | cons d between =>
      obtain ⟨rfl, -⟩ := List.cons.inj hmore
      obtain ⟨e, stretch, rfl⟩ := List.exists_cons_of_ne_nil hne
      have hmem : c ∈ "ok_".toList := by
        rw [show "ok_".toList = stretch ++ c :: between from (List.cons.inj hsentinel).2]
        simp
      exact absurd (List.mem_append_left "=".toList hmem) hc
  · rcases List.append_eq_append_iff.1 hmore with ⟨between, rfl, hpad⟩ | ⟨between, htags, -⟩
    · have hmem : c ∈ padding := by
        rw [hpad]
        simp
      rw [hpadding c hmem] at hc
      exact absurd (by decide) hc
    · refine ⟨front, fun d hd => htag d ?_, rfl⟩
      rw [htags]
      exact List.mem_append_left _ hd

/-- Where there is a tagged token, the pattern prefers to take all of it. -/
theorem head?_ends_tagged {before : Option Char} {c : Char} (hc : isTagChar c = true)
    (rest : List Char) :
    ∃ q, (tagged.pattern.ends ⟨before, "tok_".toList ++ c :: rest⟩).head? = some q ∧
      q.after = (rest.dropWhile isTagChar).dropWhile (· == '=') := by
  have hsentinel : (literal "tok_").ends ⟨before, "tok_".toList ++ c :: rest⟩ =
      [⟨some '_', c :: rest⟩] := by
    simp [literal, row, char, ends]
  have hfirst : ((one isTagChar).ends ⟨some '_', c :: rest⟩).head? = some ⟨some c, rest⟩ := by
    simp [ends, hc]
  have htag := (head?_ends_seq_many isTagChar hfirst).trans (head?_ends_many _ _)
  have hpadding := (head?_ends_seq_many (· == '=') htag).trans (head?_ends_many _ _)
  unfold pattern
  rw [ends_row_cons, hsentinel, List.flatMap_singleton]
  exact ⟨_, hpadding, rfl⟩

/-- A tagged token takes what goes on with its tag. -/
theorem not_isTagChar_behind {cs found : List Char} {front back : List Piece}
    (h : tagged.pattern.cut cs = front ++ .found found :: back) {last : Char}
    (hlast : found.getLast? = some last) (htag : isTagChar last = true) :
    ∀ c ∈ (back.flatMap Piece.text).head?, isTagChar c = false := by
  obtain ⟨-, spells, q, hq, hafter⟩ := found_of_cut h
  obtain ⟨c, tags, padding, hc, htags, hpadding, rfl⟩ := exists_of_spells_tagged spells
  have hnone : padding = [] := by
    by_contra hne
    have hsame : padding.getLast hne = last := by
      rw [List.getLast?_append_of_ne_nil _ (by simp), List.getLast?_append_of_ne_nil _ hne] at hlast
      rwa [← Option.some.injEq, ← List.getLast?_eq_some_getLast]
    rw [← hsame, hpadding _ (List.getLast_mem hne)] at htag
    cases htag
  subst hnone
  generalize (front.flatMap Piece.text).getLast? = before at hq
  generalize back.flatMap Piece.text = behind at hq hafter ⊢
  obtain ⟨q', hq', hafter'⟩ := @head?_ends_tagged before c hc (tags ++ behind)
  have hsame : q' = q := by
    simp only [List.append_nil, List.append_assoc, List.cons_append] at hq
    exact Option.some.inj (hq'.symm.trans hq)
  rw [hsame, hafter, List.dropWhile_append_of_pos htags] at hafter'
  intro e he
  cases behind with
  | nil => cases he
  | cons first more =>
    cases Option.some.inj he
    rw [← Bool.not_eq_true]
    intro hmore
    -- what is left behind the tag would be as long as what there is
    rw [List.dropWhile_cons_of_pos hmore] at hafter'
    have hpadding := (List.dropWhile_suffix (· == '=') (l := more.dropWhile isTagChar)).length_le
    have htag := (List.dropWhile_suffix isTagChar (l := more)).length_le
    rw [← hafter', List.length_cons] at hpadding
    omega

/-- A tagged token begins with its sentinel and one more character, and is found there. -/
theorem text_ne_of_other {cs : List Char} {c : Char} {front back : List Piece}
    (h : tagged.pattern.cut cs = front ++ .other c :: back) {d : Char} (hd : isTagChar d = true)
    (rest : List Char) : c :: back.flatMap Piece.text ≠ "tok_".toList ++ d :: rest := by
  intro htext
  obtain ⟨q, hq, hafter⟩ := @head?_ends_tagged (front.flatMap Piece.text).getLast? d hd rest
  have hnone := other_of_cut h (("tok_".toList ++ d :: rest).length - q.after.length - 1)
  rw [htext, matchLength?, hq, Option.map_some] at hnone
  have hpadding := (List.dropWhile_suffix (· == '=') (l := rest.dropWhile isTagChar)).length_le
  have htag := (List.dropWhile_suffix isTagChar (l := rest)).length_le
  rw [← hafter] at hpadding
  apply hnone
  simp only [List.length_append, List.length_cons, Option.some.injEq]
  omega

/-! ## Numeric tokens -/

/-- No word goes on at either end of a numeric token. -/
theorem not_isWordChar_around {cs found : List Char} {front back : List Piece}
    (h : numeric.pattern.cut cs = front ++ .found found :: back) :
    (∀ c ∈ (front.flatMap Piece.text).getLast?, Text.isWordChar c = false) ∧
      ∀ c ∈ (back.flatMap Piece.text).head?, Text.isWordChar c = false := by
  obtain ⟨-, -, q, hq, hafter⟩ := found_of_cut h
  obtain ⟨-, -, -, hfront, hback⟩ := mem_ends_numeric_iff.1 (List.mem_of_head? hq)
  exact ⟨hfront, hafter ▸ hback⟩

/-! ## Both formats -/

/-- No token begins within a piece in front of a token that is found and, having passed the pieces
between them, goes on with another text where that begins. -/
theorem not_begins_before_found {format : TokenFormat} {cs found : List Char}
    {front mid back : List Piece} {piece : Piece}
    (h : format.pattern.cut cs = front ++ piece :: (mid ++ .found found :: back))
    {before behind : List Char} (hpiece : piece.text = before ++ behind) (hne : behind ≠ [])
    {c : Char} (hc : format = .tagged → c ∉ "ok_=".toList) (rest : List Char) :
    ¬format.pattern.Spells (behind ++ mid.flatMap Piece.text ++ c :: rest) := by
  intro spells
  have hstretchNe : behind ++ mid.flatMap Piece.text ≠ [] := List.append_ne_nil_of_left_ne_nil hne _
  generalize hstretch : behind ++ mid.flatMap Piece.text = stretch at spells hstretchNe
  have hfound : format.pattern.cut cs = (front ++ piece :: mid) ++ .found found :: back := by
    rw [h, List.append_assoc, List.cons_append]
  cases format with
  | numeric =>
    -- the character in front of the token that is found is a digit
    have hlast : ((front ++ piece :: mid).flatMap Piece.text).getLast? =
        some (stretch.getLast hstretchNe) := by
      rw [List.flatMap_append, List.flatMap_cons, hpiece, List.append_assoc, hstretch,
        ← List.append_assoc, List.getLast?_append_of_ne_nil _ hstretchNe,
        List.getLast?_eq_some_getLast]
    have hword := (not_isWordChar_around hfound).1 _ hlast
    have hdigit := isDigit_of_spells_numeric spells _
      (List.mem_append_left _ (List.getLast_mem hstretchNe))
    rw [isWordChar_of_isDigit hdigit] at hword
    cases hword
  | tagged =>
    -- the tag that begins there goes on with the sentinel of the token that is found
    obtain ⟨tags, htags, rfl⟩ := exists_of_spells_tagged_front spells hstretchNe (hc rfl)
    have hgoesOn {tag : List Char} (htag : ∀ d ∈ tag, isTagChar d = true) :
        ∃ d rest, isTagChar d = true ∧ tag ++ (found ++ back.flatMap Piece.text) = d :: rest := by
      cases tag with
      | nil =>
        obtain ⟨-, -, -, -, -, -, rfl⟩ := exists_of_spells_tagged (found_of_cut hfound).2.1
        exact ⟨'t', _, rfl, rfl⟩
      | cons d tag => exact ⟨d, _, htag d List.mem_cons_self, rfl⟩
    have htext : (mid ++ .found found :: back).flatMap Piece.text =
        mid.flatMap Piece.text ++ (found ++ back.flatMap Piece.text) := by
      rw [List.flatMap_append, List.flatMap_cons, Piece.text]
    have hsentinel : "tok_".toList.all isTagChar = true := by decide
    have hstretchTags : ∀ d ∈ behind ++ mid.flatMap Piece.text, isTagChar d = true := by
      rw [hstretch]
      exact List.forall_mem_append.2 ⟨List.all_eq_true.1 hsentinel, htags⟩
    obtain ⟨hbehind, hmid⟩ := List.forall_mem_append.1 hstretchTags
    cases piece with
    | found other =>
      have hlast : other.getLast? = some (behind.getLast hne) := by
        rw [show other = before ++ behind from hpiece, List.getLast?_append_of_ne_nil _ hne,
          List.getLast?_eq_some_getLast]
      obtain ⟨d, rest, hd, hmore⟩ := hgoesOn hmid
      have hnone := not_isTagChar_behind h hlast (hbehind _ (List.getLast_mem hne)) d
        (by rw [htext, hmore]; rfl)
      rw [hd] at hnone
      cases hnone
    | other e =>
      have hbehind : behind = [e] := by
        rcases List.append_eq_singleton_iff.1 hpiece.symm with ⟨-, hbehind⟩ | ⟨-, hbehind⟩
        · exact hbehind
        · exact absurd hbehind hne
      obtain ⟨d, rest, hd, hmore⟩ := hgoesOn htags
      apply text_ne_of_other h hd rest
      rw [hbehind] at hstretch
      rw [htext, ← hmore, ← List.append_assoc "tok_".toList, ← hstretch, List.append_assoc]
      rfl

/-- No token begins within a text in the place of a token that is found and goes on behind it. -/
theorem not_goes_on_behind_found {format : TokenFormat} {cs found : List Char}
    {front back : List Piece} (h : format.pattern.cut cs = front ++ .found found :: back)
    {view : Piece → List Char} (hview : ∀ c, .other c ∈ back → view (.other c) = [c])
    {stretch rest : List Char} (hstretch : format = .tagged → 't' ∉ stretch) (hne : stretch ≠ [])
    (hrest : rest ≠ []) (spells : format.pattern.Spells (stretch ++ rest)) :
    ¬rest <+: back.flatMap view := by
  intro hbehind
  obtain ⟨d, more, rfl⟩ := List.exists_cons_of_ne_nil hrest
  cases format with
  | tagged =>
    obtain ⟨first, others, rfl⟩ := List.exists_cons_of_ne_nil hne
    obtain ⟨c, tags, padding, -, -, -, htoken⟩ := exists_of_spells_tagged spells
    have hfirst : first = 't' := (List.cons.inj htoken).1
    apply hstretch rfl
    rw [hfirst]
    exact List.mem_cons_self
  | numeric =>
    have hword := (not_isWordChar_around h).2
    cases back with
    | nil => cases List.prefix_nil.1 hbehind
    | cons piece back =>
      cases piece with
      | other c =>
        rw [List.flatMap_cons, hview c List.mem_cons_self] at hbehind
        obtain ⟨rfl, -⟩ := List.cons_prefix_cons.1 hbehind
        have hdigit := isDigit_of_spells_numeric spells d (by simp)
        have hnone := hword d rfl
        rw [isWordChar_of_isDigit hdigit] at hnone
        cases hnone
      | found next =>
        have hnext : numeric.pattern.cut cs = (front ++ [.found found]) ++ .found next :: back := by
          rw [h, List.append_assoc, List.singleton_append]
        obtain ⟨others, -, rfl⟩ := exists_of_spells_numeric (found_of_cut hnext).2.1
        have hnone := hword '9' rfl
        exact absurd hnone (by decide)

end CardGate.TokenFormat
