import CardGate.Text.WordChar
import CardGate.Proofs.Pattern.Ends

/-!
# Runs of characters

A run is a stretch of a text that consists of characters of a class and goes on as far as it can on
both sides.  `runsFrom` lists the runs of a text with the places where they start, and
`mem_runsFrom_iff` says which stretches these are.  The runs of word characters are the words of a
text as a search for whole words sees them.
-/

namespace CardGate

/-- A stretch of a text, with the place where it starts. -/
structure Span where
  start : Nat
  text : List Char
  deriving DecidableEq, Repr

/-- The place behind a stretch. -/
def Span.stop (span : Span) : Nat :=
  span.start + span.text.length

namespace Text

variable {accepts : Char → Bool}

/-- The runs of a class in the text behind a character, which starts at a given place. -/
def runsFrom (accepts : Char → Bool) (before : Option Char) (start : Nat) :
    List Char → List Span
  | [] => []
  | c :: rest =>
    if accepts c && !before.any accepts then
      ⟨start, (c :: rest).takeWhile accepts⟩ :: runsFrom accepts (some c) (start + 1) rest
    else runsFrom accepts (some c) (start + 1) rest

/-- The runs of word characters in a text, from left to right. -/
def wordRuns (cs : List Char) : List Span :=
  runsFrom isWordChar none 0 cs

/-- Whether a stretch between a character and a text is a run. -/
structure IsRun (accepts : Char → Bool) (before : Option Char) (word back : List Char) : Prop where
  nonempty : word ≠ []
  accepted : ∀ c ∈ word, accepts c = true
  begins : ∀ c ∈ before, accepts c = false
  ends : ∀ c ∈ back.head?, accepts c = false

/-- What is taken of a text is told by where it ends. -/
theorem takeWhile_append_of_ends {word back : List Char} (hword : ∀ c ∈ word, accepts c = true)
    (hback : ∀ c ∈ back.head?, accepts c = false) : (word ++ back).takeWhile accepts = word := by
  rw [List.takeWhile_append_of_pos hword]
  cases back with
  | nil => simp
  | cons c back => simp [hback c rfl]

theorem isRun_takeWhile {before : Option Char} {c : Char} {rest : List Char}
    (haccepts : accepts c = true) (hbefore : before.any accepts = false) :
    IsRun accepts before ((c :: rest).takeWhile accepts) ((c :: rest).dropWhile accepts) where
  nonempty := by simp [haccepts]
  accepted := List.all_eq_true.1 List.all_takeWhile
  begins := by simpa [Option.any_eq_false] using hbefore
  ends := by
    intro d hd
    have hhead := List.head?_dropWhile_not accepts (c :: rest)
    rw [Option.mem_def] at hd
    simpa [hd] using hhead

/-- A stretch at the front of a text is a run if it is what is taken there. -/
theorem isRun_iff {before : Option Char} {c : Char} {rest word : List Char} :
    (∃ back, c :: rest = word ++ back ∧ IsRun accepts before word back) ↔
      (accepts c = true ∧ before.any accepts = false) ∧ word = (c :: rest).takeWhile accepts := by
  constructor
  · intro h
    obtain ⟨back, hword, hrun⟩ := h
    have htaken := takeWhile_append_of_ends hrun.accepted hrun.ends
    refine ⟨⟨?_, ?_⟩, by rw [hword, htaken]⟩
    · obtain ⟨d, word, rfl⟩ := List.exists_cons_of_ne_nil hrun.nonempty
      obtain ⟨rfl, -⟩ := List.cons.inj hword
      exact hrun.accepted c List.mem_cons_self
    · simpa [Option.any_eq_false] using hrun.begins
  · intro h
    obtain ⟨⟨haccepts, hbefore⟩, rfl⟩ := h
    exact ⟨_, List.takeWhile_append_dropWhile.symm, isRun_takeWhile haccepts hbefore⟩

theorem mem_runsFrom_cons {before : Option Char} {start : Nat} {c : Char} {rest : List Char}
    {span : Span} :
    span ∈ runsFrom accepts before start (c :: rest) ↔
      (span.start = start ∧ ∃ back, c :: rest = span.text ++ back ∧
          IsRun accepts before span.text back) ∨
        span ∈ runsFrom accepts (some c) (start + 1) rest := by
  rw [isRun_iff, runsFrom]
  split
  · next h =>
    simp only [Bool.and_eq_true, Bool.not_eq_true'] at h
    rw [List.mem_cons]
    refine or_congr_left ?_
    constructor
    · intro hspan
      subst hspan
      exact ⟨rfl, h, rfl⟩
    · intro hspan
      obtain ⟨hstart, -, htext⟩ := hspan
      cases span
      simp_all
  · next h =>
    simp only [Bool.and_eq_true, Bool.not_eq_true'] at h
    exact (or_iff_right fun hspan => h hspan.2.1).symm

/-- The runs of a text are all the stretches of it that are runs. -/
theorem mem_runsFrom_iff {before : Option Char} {start : Nat} {cs : List Char} {span : Span} :
    span ∈ runsFrom accepts before start cs ↔
      ∃ front back, cs = front ++ (span.text ++ back) ∧ span.start = start + front.length ∧
        IsRun accepts (front.getLast?.or before) span.text back := by
  induction cs generalizing before start with
  | nil =>
    rw [runsFrom]
    refine iff_of_false List.not_mem_nil ?_
    intro h
    obtain ⟨front, back, hcs, -, hrun⟩ := h
    exact hrun.nonempty (by simp_all)
  | cons c rest ih =>
    rw [mem_runsFrom_cons, ih]
    constructor
    · intro h
      rcases h with ⟨hstart, back, hcs, hrun⟩ | ⟨front, back, rfl, hstart, hrun⟩
      · exact ⟨[], back, hcs, hstart, hrun⟩
      · refine ⟨c :: front, back, rfl, ?_, ?_⟩
        · rw [List.length_cons]
          omega
        · rwa [Pattern.getLast?_cons_or]
    · intro h
      obtain ⟨front, back, hcs, hstart, hrun⟩ := h
      cases front with
      | nil => exact Or.inl ⟨hstart, back, hcs, hrun⟩
      | cons d front =>
        obtain ⟨rfl, hrest⟩ := List.cons.inj hcs
        refine Or.inr ⟨front, back, hrest, ?_, ?_⟩
        · rw [List.length_cons] at hstart
          omega
        · rwa [Pattern.getLast?_cons_or] at hrun

theorem mem_wordRuns_iff {cs : List Char} {span : Span} :
    span ∈ wordRuns cs ↔
      ∃ front back, cs = front ++ (span.text ++ back) ∧ span.start = front.length ∧
        IsRun isWordChar front.getLast? span.text back := by
  simp only [wordRuns, mem_runsFrom_iff, Option.or_none, Nat.zero_add]

/-- Within a run no other one begins. -/
theorem runsFrom_of_accepted {before : Option Char} {start : Nat} {cs : List Char}
    (hbefore : before.any accepts = true) (h : ∀ c ∈ cs, accepts c = true) :
    runsFrom accepts before start cs = [] := by
  induction cs generalizing before start with
  | nil => rfl
  | cons c rest ih =>
    obtain ⟨hc, hrest⟩ := List.forall_mem_cons.1 h
    rw [runsFrom, hbefore, Bool.not_true, Bool.and_false, if_neg Bool.false_ne_true]
    exact ih hc hrest

/-- A text of word characters is a single run. -/
theorem wordRuns_of_word {cs : List Char} (hne : cs ≠ []) (h : ∀ c ∈ cs, isWordChar c = true) :
    wordRuns cs = [⟨0, cs⟩] := by
  obtain ⟨c, rest, rfl⟩ := List.exists_cons_of_ne_nil hne
  obtain ⟨hc, hrest⟩ := List.forall_mem_cons.1 h
  have hmore : runsFrom isWordChar (some c) (0 + 1) rest = [] := runsFrom_of_accepted hc hrest
  have htaken := @takeWhile_append_of_ends _ (c :: rest) [] h nofun
  rw [List.append_nil] at htaken
  rw [wordRuns, runsFrom, if_pos (by simp [hc]), htaken, hmore]

end Text

end CardGate
