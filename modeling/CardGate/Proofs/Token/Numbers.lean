import CardGate.Proofs.Card.Coverage
import CardGate.Proofs.Pattern.Spans
import CardGate.Proofs.Token.Shape

/-!
# Numbers among the words of a text

Numeric tokens and card numbers are looked for as whole words: a number that is a part of a longer
run of word characters, be these digits, letters, underscores or characters of another script, is
none.  By `numbers_scanned` each search finds the runs of word characters that have its shape, and
no text has both shapes.
-/

namespace CardGate

open Pattern

/-! ## Numeric tokens -/

namespace TokenFormat

/-- Whether a word is sixteen digits that begin with the sentinel of numeric tokens. -/
def isNumericWord (word : List Char) : Bool :=
  word.length == 16 && word.all Char.isDigit && "9999".toList.isPrefixOf word

theorem isNumericWord_iff {word : List Char} :
    isNumericWord word = true ↔
      word.length = 16 ∧ (∀ c ∈ word, c.isDigit = true) ∧ "9999".toList <+: word := by
  simp only [isNumericWord, Bool.and_eq_true, beq_iff_eq, List.all_eq_true,
    List.isPrefixOf_iff_prefix, and_assoc]

/-- Such a word has twelve digits behind the sentinel. -/
theorem isNumericWord_append {digits : List Char} :
    isNumericWord ("9999".toList ++ digits) = true ↔
      digits.length = 12 ∧ ∀ d ∈ digits, d.isDigit = true := by
  have hsentinel : ∀ c ∈ "9999".toList, c.isDigit = true := List.all_eq_true.1 (by decide)
  rw [isNumericWord_iff, List.length_append, List.forall_mem_append]
  constructor
  · intro h
    obtain ⟨hlength, ⟨-, hdigits⟩, -⟩ := h
    exact ⟨Nat.add_left_cancel hlength, hdigits⟩
  · intro h
    obtain ⟨hlength, hdigits⟩ := h
    exact ⟨congrArg (4 + ·) hlength, ⟨hsentinel, hdigits⟩, List.prefix_append _ _⟩

/-- The pattern of numeric tokens takes whole words. -/
theorem takesWords_numeric : numeric.pattern.TakesWords isNumericWord := by
  have hlast (digits : List Char) (before : Option Char) :
      ("9999".toList ++ digits).getLast?.or before = digits.getLast?.or (some '9') := by
    rw [List.getLast?_append, Option.or_assoc]
    rfl
  intro p q
  rw [mem_ends_numeric_iff]
  constructor
  · intro h
    obtain ⟨digits, hdigits, ⟨hafter, hbefore⟩, hbegins, hends⟩ := h
    have hword := isNumericWord_append.2 hdigits
    refine ⟨"9999".toList ++ digits, hword, ⟨?_, ?_⟩, ?_, ?_, hbegins, hends⟩
    · rw [hafter, List.append_assoc]
    · rw [hbefore, hlast]
    · exact List.append_ne_nil_of_left_ne_nil (by decide) digits
    · exact Card.isWordChar_of_digits (isNumericWord_iff.1 hword).2.1
  · intro h
    obtain ⟨word, hword, hpasses, hrun⟩ := h
    obtain ⟨digits, rfl⟩ := (isNumericWord_iff.1 hword).2.2
    refine ⟨digits, isNumericWord_append.1 hword, ⟨?_, ?_⟩, hrun.begins, hrun.ends⟩
    · rw [hpasses.1, List.append_assoc]
    · rw [hpasses.2, hlast]

end TokenFormat

/-! ## Both -/

/-- Numeric tokens and card numbers are found among the runs of word characters of a text: the
matches are the runs of the shape in question, in order.  A text holds a card number if such a run
is one, and a text that is a numeric token holds none. -/
theorem numbers_scanned (s : String) :
    TokenFormat.numeric.pattern.ScansWords TokenFormat.isNumericWord s.toList ∧
      Card.numberPattern.ScansWords Card.isNumberWord s.toList ∧
      (Card.looksLikeNumber s = true ↔
        ∃ run ∈ Text.wordRuns s.toList, Card.isNumberWord run.text = true) ∧
      ¬(TokenFormat.isNumericWord s.toList = true ∧ Card.looksLikeNumber s = true) := by
  refine ⟨TokenFormat.takesWords_numeric.scans s.toList,
    Card.takesWords_numberPattern.scans s.toList, Card.looksLikeNumber_iff, ?_⟩
  intro h
  obtain ⟨htoken, hnumber⟩ := h
  obtain ⟨-, hdigits, hsentinel⟩ := TokenFormat.isNumericWord_iff.1 htoken
  rw [Card.looksLikeNumber_of_nines hdigits hsentinel] at hnumber
  cases hnumber

/-- A card number in a longer run of word characters is none, whatever the run goes on with. -/
example :
    Card.numberPattern.findAll "4111111111111111é, x4111111111111111; 4222222222222.".toList =
      ["4222222222222".toList] := by
  decide +kernel

end CardGate
