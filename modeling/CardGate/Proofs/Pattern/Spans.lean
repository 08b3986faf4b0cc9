import CardGate.Proofs.Pattern.Cut
import CardGate.Proofs.Text.Runs
import Mathlib.Data.List.Pairwise

/-!
# Where matches lie

`Pattern.findAll` lists the matches of a text, and `Pattern.spans` the places where they start as
well.  The spans of a text come in order and do not overlap (`pairwise_spans`).

A pattern that takes whole words can only match a run of word characters as a whole.  By
`TakesWords.scans` its matches are the runs that fit, one after the other.
-/

namespace CardGate

/-- Whether two stretches of a text do not overlap. -/
def Span.Apart (span other : Span) : Prop :=
  span.stop ≤ other.start ∨ other.stop ≤ span.start

instance : Std.Symm Span.Apart := ⟨fun _ _ => Or.symm⟩

/-- The matches among pieces, the first of which starts at a given place. -/
def Piece.spansFrom (start : Nat) : List Piece → List Span
  | [] => []
  | .other _ :: more => spansFrom (start + 1) more
  | .found cs :: more => ⟨start, cs⟩ :: spansFrom (start + cs.length) more

namespace Pattern

variable {pattern : Pattern}

/-- The matches of a pattern in a text, from left to right, with the places where they start. -/
def spans (pattern : Pattern) (cs : List Char) : List Span :=
  Piece.spansFrom 0 (pattern.cut cs)

/-! ## Spans and pieces -/

theorem map_text_spansFrom (start : Nat) (pieces : List Piece) :
    (Piece.spansFrom start pieces).map Span.text = pieces.filterMap Piece.found? := by
  induction pieces generalizing start with
  | nil => rfl
  | cons piece pieces ih =>
    cases piece with
    | other c => exact ih (start + 1)
    | found cs => exact congrArg (cs :: ·) (ih (start + cs.length))

/-- The spans of a text are its matches. -/
theorem map_text_spans (cs : List Char) : (pattern.spans cs).map Span.text = pattern.findAll cs :=
  map_text_spansFrom 0 (pattern.cut cs)

theorem mem_spansFrom_iff {start : Nat} {pieces : List Piece} {span : Span} :
    span ∈ Piece.spansFrom start pieces ↔
      ∃ front back, pieces = front ++ .found span.text :: back ∧
        span.start = start + (front.flatMap Piece.text).length := by
  induction pieces generalizing start with
  | nil => simp [Piece.spansFrom]
  | cons piece pieces ih =>
    have hfirst : Piece.spansFrom start (piece :: pieces) =
        (piece.found?.map (Span.mk start)).toList ++
          Piece.spansFrom (start + piece.text.length) pieces := by
      cases piece <;> rfl
    rw [hfirst, List.mem_append, ih]
    constructor
    · intro h
      rcases h with h | ⟨front, back, rfl, hstart⟩
      · cases piece with
        | other c => simp [Piece.found?] at h
        | found cs =>
          simp only [Piece.found?, Option.map_some, Option.toList_some, List.mem_singleton] at h
          subst h
          exact ⟨[], pieces, rfl, rfl⟩
      · refine ⟨piece :: front, back, rfl, ?_⟩
        simp only [List.flatMap_cons, List.length_append]
        omega
    · intro h
      obtain ⟨front, back, hpieces, hstart⟩ := h
      cases front with
      | nil =>
        obtain ⟨rfl, -⟩ := List.cons.inj hpieces
        refine Or.inl ?_
        cases span
        simpa [Piece.found?] using hstart
      | cons other front =>
        obtain ⟨rfl, rfl⟩ := List.cons.inj hpieces
        refine Or.inr ⟨front, back, rfl, ?_⟩
        simp only [List.flatMap_cons, List.length_append] at hstart
        omega

theorem mem_spans_iff {cs : List Char} {span : Span} :
    span ∈ pattern.spans cs ↔
      ∃ front back, pattern.cut cs = front ++ .found span.text :: back ∧
        span.start = (front.flatMap Piece.text).length := by
  simp only [spans, mem_spansFrom_iff, Nat.zero_add]

theorem pairwise_spansFrom (start : Nat) (pieces : List Piece) :
    (Piece.spansFrom start pieces).Pairwise fun span later => span.stop ≤ later.start := by
  induction pieces generalizing start with
  | nil => exact .nil
  | cons piece pieces ih =>
    cases piece with
    | other c => exact ih (start + 1)
    | found cs =>
      refine List.pairwise_cons.2 ⟨fun later hlater => ?_, ih (start + cs.length)⟩
      obtain ⟨front, back, -, hstart⟩ := mem_spansFrom_iff.1 hlater
      simp only [Span.stop]
      omega

/-- Matches come in order, and none begins before the one in front of it has stopped. -/
theorem pairwise_spans (cs : List Char) :
    (pattern.spans cs).Pairwise fun span later => span.stop ≤ later.start :=
  pairwise_spansFrom 0 (pattern.cut cs)

theorem apart_of_mem_spans {cs : List Char} {span other : Span} (h : span ∈ pattern.spans cs)
    (hother : other ∈ pattern.spans cs) (hne : span ≠ other) : span.Apart other :=
  have hapart : (pattern.spans cs).Pairwise Span.Apart := (pairwise_spans cs).imp Or.inl
  hapart.forall h hother hne

/-! ## Patterns of whole words -/

variable {fits : List Char → Bool}

/-- Where a run begins, such a pattern takes all of it if it fits, and does not match if not. -/
theorem TakesWords.matchLength?_of_isRun (h : pattern.TakesWords fits) {before : Option Char}
    {word back : List Char} (hrun : Text.IsRun Text.isWordChar before word back) :
    pattern.matchLength? ⟨before, word ++ back⟩ = if fits word then some word.length else none := by
  have hends (q : Place) : q ∈ pattern.ends ⟨before, word ++ back⟩ ↔
      fits word = true ∧ Place.Passes ⟨before, word ++ back⟩ word q := by
    rw [h]
    constructor
    · intro hq
      obtain ⟨other, hfits, hpasses, hother⟩ := hq
      have hsame : word = other := by
        rw [← Text.takeWhile_append_of_ends hrun.accepted hrun.ends,
          ← Text.takeWhile_append_of_ends hother.accepted hother.ends]
        exact congrArg _ hpasses.1
      subst hsame
      exact ⟨hfits, hpasses⟩
    · intro hq
      obtain ⟨hfits, hpasses⟩ := hq
      have hback : back = q.after := List.append_cancel_left hpasses.1
      exact ⟨word, hfits, hpasses, hback ▸ hrun⟩
  rw [matchLength?]
  split
  · next hfits =>
    have hmem : ⟨word.getLast?.or before, back⟩ ∈ pattern.ends ⟨before, word ++ back⟩ :=
      (hends _).2 ⟨hfits, rfl, rfl⟩
    obtain ⟨q, hq⟩ := Option.isSome_iff_exists.1 (List.isSome_head?.2 (List.ne_nil_of_mem hmem))
    have hafter : word ++ back = word ++ q.after := ((hends q).1 (List.mem_of_head? hq)).2.1
    rw [hq, Option.map_some, ← List.append_cancel_left hafter, List.length_append,
      Nat.add_sub_cancel]
  · next hfits =>
    have hnone : pattern.ends ⟨before, word ++ back⟩ = [] :=
      List.eq_nil_iff_forall_not_mem.2 fun q hq => hfits ((hends q).1 hq).1
    rw [hnone]
    rfl

/-- Where no run begins, such a pattern does not match. -/
theorem TakesWords.matchLength?_of_no_run (h : pattern.TakesWords fits) {before : Option Char}
    {c : Char} {rest : List Char}
    (hnone : (Text.isWordChar c && !before.any Text.isWordChar) = false) :
    pattern.matchLength? ⟨before, c :: rest⟩ = none := by
  have hends : pattern.ends ⟨before, c :: rest⟩ = [] := by
    refine List.eq_nil_iff_forall_not_mem.2 fun q hq => ?_
    obtain ⟨word, -, hpasses, hrun⟩ := (h _ q).1 hq
    have hbegins := (Text.isRun_iff.1 ⟨q.after, hpasses.1, hrun⟩).1
    simp [hbegins] at hnone
  rw [matchLength?, hends]
  rfl

/-- The matches of such a pattern are the runs that fit, also where the search has taken the first
characters, all of them of a run, already. -/
theorem TakesWords.spansFrom_cutFrom (h : pattern.TakesWords fits) {skip start : Nat}
    {before : Option Char} {cs : List Char}
    (hskipped : ∀ c ∈ cs.take skip, Text.isWordChar c = true)
    (hbefore : skip ≠ 0 → before.any Text.isWordChar = true) :
    Piece.spansFrom (start + skip) (pattern.cutFrom skip before cs) =
      (Text.runsFrom Text.isWordChar before start cs).filter (fits ·.text) := by
  induction cs generalizing skip start before with
  | nil => rfl
  | cons c rest ih =>
    cases skip with
    | succ skip =>
      have hc : (some c).any Text.isWordChar = true := hskipped c (by simp)
      have hmore := @ih skip (start + 1) (some c)
        (fun d hd => hskipped d (List.mem_cons_of_mem c hd)) fun _ => hc
      rw [Text.runsFrom, hbefore (Nat.succ_ne_zero skip), Bool.not_true, Bool.and_false,
        if_neg Bool.false_ne_true, ← hmore, Nat.add_right_comm start 1 skip]
      rfl
    | zero =>
      by_cases hbegins : (Text.isWordChar c && !before.any Text.isWordChar) = true
      · have hboth := (Bool.and_eq_true _ _).mp hbegins
        rw [Bool.not_eq_true'] at hboth
        have hmatch := h.matchLength?_of_isRun (@Text.isRun_takeWhile _ _ c rest hboth.1 hboth.2)
        rw [List.takeWhile_append_dropWhile, List.takeWhile_cons_of_pos hboth.1,
          List.length_cons] at hmatch
        rw [Text.runsFrom, if_pos hbegins, List.takeWhile_cons_of_pos hboth.1, List.filter_cons]
        by_cases hfits : fits (c :: rest.takeWhile Text.isWordChar) = true
        · have htaken : rest.take (rest.takeWhile Text.isWordChar).length =
              rest.takeWhile Text.isWordChar :=
            (List.prefix_iff_eq_take.1 (List.takeWhile_prefix _)).symm
          have hmore := @ih (rest.takeWhile Text.isWordChar).length (start + 1) (some c)
            (htaken.symm ▸ List.all_eq_true.1 List.all_takeWhile) fun _ => hboth.1
          rw [if_pos hfits] at hmatch ⊢
          rw [cutFrom_of_match hmatch, htaken, ← hmore, Nat.add_right_comm start 1]
          rfl
        · rw [if_neg hfits] at hmatch ⊢
          rw [cutFrom_of_no_match fun n => by simp [hmatch]]
          exact ih (by simp) fun hne => absurd rfl hne
      · rw [cutFrom_of_no_match fun n => by
            simp [h.matchLength?_of_no_run (Bool.eq_false_iff.2 hbegins)],
          Text.runsFrom, if_neg hbegins]
        exact ih (by simp) fun hne => absurd rfl hne

/-- Whether the matches in a text are the runs of word characters that fit, in their order and at
their places. -/
structure ScansWords (pattern : Pattern) (fits : List Char → Bool) (cs : List Char) : Prop where
  spans_eq : pattern.spans cs = (Text.wordRuns cs).filter (fits ·.text)
  findAll_eq : pattern.findAll cs = ((Text.wordRuns cs).filter (fits ·.text)).map Span.text

/-- A pattern of whole words goes through a text run by run. -/
theorem TakesWords.scans (h : pattern.TakesWords fits) (cs : List Char) :
    pattern.ScansWords fits cs := by
  have hspans : pattern.spans cs = (Text.wordRuns cs).filter (fits ·.text) :=
    h.spansFrom_cutFrom (by simp) fun hne => absurd rfl hne
  exact ⟨hspans, by rw [← hspans, map_text_spans]⟩

end Pattern

end CardGate
