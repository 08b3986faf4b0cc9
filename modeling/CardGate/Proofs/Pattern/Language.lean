import CardGate.Proofs.Pattern.Ends
import CardGate.Proofs.Text.Runs

/-!
# What a pattern spells

`Pattern.ends` says where a match may end when it starts at a given place.  `Spells` says which
texts a match may pass, without places: an edge passes nothing, whatever stands around it.

A pattern without edges is plain.  It ends behind every text that it spells, by
`mem_ends_iff_spells`, so it is found in a text exactly if the text has a part that it spells
(`matchesIn_iff_spells`).  A plain pattern between two edges takes whole words (`takesWords_row`),
and is found if it spells one of the runs of word characters (`TakesWords.matchesIn_iff`).
-/

namespace CardGate

/-- One place is behind another, with given characters between them. -/
def Place.Passes (p : Place) (cs : List Char) (q : Place) : Prop :=
  p.after = cs ++ q.after ∧ q.before = cs.getLast?.or p.before

namespace Pattern

/-- Whether a text can be what a match passes. -/
def Spells : Pattern → List Char → Prop
  | empty, cs | wordEdge, cs | textStart, cs | textEnd, cs => cs = []
  | one accepts, cs => ∃ c, accepts c = true ∧ cs = [c]
  | seq first second, cs =>
    ∃ front back, first.Spells front ∧ second.Spells back ∧ cs = front ++ back
  | either first second, cs => first.Spells cs ∨ second.Spells cs
  | many accepts, cs | few accepts, cs => ∀ c ∈ cs, accepts c = true

/-- Whether a pattern goes by the characters that it passes, and not by what stands around them. -/
def isPlain : Pattern → Bool
  | empty | one _ | many _ | few _ => true
  | seq first second | either first second => first.isPlain && second.isPlain
  | wordEdge | textStart | textEnd => false

/-! ## Patterns and their parts -/

theorem spells_row_nil {cs : List Char} : (row []).Spells cs ↔ cs = [] :=
  Iff.rfl

/-- A row spells what its parts spell, one behind the other. -/
theorem spells_row_cons {first : Pattern} {more : List Pattern} {cs : List Char} :
    (row (first :: more)).Spells cs ↔
      ∃ front back, first.Spells front ∧ (row more).Spells back ∧ cs = front ++ back := by
  cases more with
  | nil =>
    constructor
    · intro h
      exact ⟨cs, [], h, rfl, (List.append_nil cs).symm⟩
    · intro h
      obtain ⟨front, back, hfront, rfl, rfl⟩ := h
      rwa [List.append_nil]
  | cons second more => exact Iff.rfl

/-- A row that begins with a class spells a character of the class and what the others spell. -/
theorem spells_row_one {accepts : Char → Bool} {more : List Pattern} {c : Char} {cs : List Char} :
    (row (one accepts :: more)).Spells (c :: cs) ↔ accepts c = true ∧ (row more).Spells cs := by
  rw [spells_row_cons]
  constructor
  · intro h
    obtain ⟨front, back, ⟨d, hd, rfl⟩, hback, hcs⟩ := h
    obtain ⟨rfl, rfl⟩ := List.cons.inj hcs
    exact ⟨hd, hback⟩
  · intro h
    exact ⟨[c], cs, ⟨c, h.1, rfl⟩, h.2, rfl⟩

/-- Rows one behind the other spell what the one spells and then what the other does. -/
theorem spells_row_append {patterns more : List Pattern} {cs : List Char} :
    (row (patterns ++ more)).Spells cs ↔
      ∃ front back, (row patterns).Spells front ∧ (row more).Spells back ∧ cs = front ++ back := by
  induction patterns generalizing cs with
  | nil =>
    constructor
    · intro h
      exact ⟨[], cs, rfl, h, rfl⟩
    · intro h
      obtain ⟨front, back, rfl, hback, rfl⟩ := h
      exact hback
  | cons pattern patterns ih =>
    rw [List.cons_append, spells_row_cons]
    constructor
    · intro h
      obtain ⟨here, back, hhere, hback, rfl⟩ := h
      obtain ⟨there, rest, hthere, hrest, rfl⟩ := ih.1 hback
      refine ⟨here ++ there, rest, spells_row_cons.2 ⟨here, there, hhere, hthere, rfl⟩, hrest, ?_⟩
      exact (List.append_assoc here there rest).symm
    · intro h
      obtain ⟨front, back, hfront, hback, rfl⟩ := h
      obtain ⟨here, there, hhere, hthere, rfl⟩ := spells_row_cons.1 hfront
      refine ⟨here, there ++ back, hhere, ih.2 ⟨there, back, hthere, hback, rfl⟩, ?_⟩
      exact List.append_assoc here there back

/-- A row within a row is a part of it. -/
theorem spells_row_row (patterns inner : List Pattern) {more : List Pattern} {cs : List Char} :
    (row (patterns ++ row inner :: more)).Spells cs ↔
      (row (patterns ++ (inner ++ more))).Spells cs := by
  simp only [spells_row_append, spells_row_cons]

/-- A row with a choice in it is a choice of rows. -/
theorem spells_row_either (patterns : List Pattern) {first second : Pattern}
    {more : List Pattern} {cs : List Char} :
    (row (patterns ++ either first second :: more)).Spells cs ↔
      (row (patterns ++ first :: more)).Spells cs ∨
        (row (patterns ++ second :: more)).Spells cs := by
  simp only [spells_row_append, spells_row_cons, Spells, or_and_right, and_or_left, exists_or]

/-- A row of classes spells a character of each. -/
theorem spells_row_map_one {classes : List (Char → Bool)} {cs : List Char} :
    (row (classes.map one)).Spells cs ↔
      List.Forall₂ (fun accepts c => accepts c = true) classes cs := by
  induction classes generalizing cs with
  | nil => rw [List.map_nil, spells_row_nil, List.forall₂_nil_left_iff]
  | cons accepts classes ih =>
    rw [List.map_cons]
    cases cs with
    | nil =>
      refine iff_of_false (fun h => ?_) nofun
      obtain ⟨front, back, ⟨c, -, rfl⟩, -, hcs⟩ := spells_row_cons.1 h
      cases hcs
    | cons c cs => rw [spells_row_one, ih, List.forall₂_cons]

/-- A literal spells itself. -/
theorem spells_literal {s : String} {cs : List Char} : (literal s).Spells cs ↔ cs = s.toList := by
  rw [literal_eq_row, spells_row_map_one, forall₂_letters_iff]

/-- A class repeated a number of times spells as many characters of the class. -/
theorem spells_times_one {n : Nat} {accepts : Char → Bool} {cs : List Char} :
    (times n (one accepts)).Spells cs ↔ cs.length = n ∧ ∀ c ∈ cs, accepts c = true := by
  rw [times, ← List.map_replicate, spells_row_map_one, forall₂_replicate_iff]

/-- The least number of characters that a match passes. -/
def least : Pattern → Nat
  | empty | many _ | few _ | wordEdge | textStart | textEnd => 0
  | one _ => 1
  | seq first second => first.least + second.least
  | either first second => min first.least second.least

theorem least_le_of_spells {pattern : Pattern} {cs : List Char} (h : pattern.Spells cs) :
    pattern.least ≤ cs.length := by
  induction pattern generalizing cs with
  | one accepts =>
    obtain ⟨c, -, rfl⟩ := h
    exact Nat.le_refl 1
  | seq first second ihfirst ihsecond =>
    obtain ⟨front, back, hfront, hback, rfl⟩ := h
    rw [List.length_append]
    exact Nat.add_le_add (ihfirst hfront) (ihsecond hback)
  | either first second ihfirst ihsecond =>
    rcases h with h | h
    · exact Nat.le_trans (Nat.min_le_left _ _) (ihfirst h)
    · exact Nat.le_trans (Nat.min_le_right _ _) (ihsecond h)
  | _ => exact Nat.zero_le _

/-! ## Patterns and places -/

theorem passes_nil {p q : Place} : p.Passes [] q ↔ q = p := by
  obtain ⟨before, after⟩ := p
  obtain ⟨before', after'⟩ := q
  simp only [Place.Passes, List.nil_append, List.getLast?_nil, Option.none_or, Place.mk.injEq]
  exact and_comm.trans (and_congr_right fun _ => eq_comm)

theorem passes_append {p q : Place} {front back : List Char} :
    p.Passes (front ++ back) q ↔ ∃ middle, p.Passes front middle ∧ middle.Passes back q := by
  constructor
  · intro h
    refine ⟨⟨front.getLast?.or p.before, back ++ q.after⟩, ⟨?_, rfl⟩, rfl, ?_⟩
    · rw [h.1, List.append_assoc]
    · rw [h.2, List.getLast?_append, Option.or_assoc]
  · intro h
    obtain ⟨middle, hfront, hback⟩ := h
    constructor
    · rw [hfront.1, hback.1, List.append_assoc]
    · rw [hback.2, hfront.2, List.getLast?_append, Option.or_assoc]

theorem passes_cons {p q : Place} {c : Char} {cs : List Char} :
    p.Passes (c :: cs) q ↔ ∃ rest, p.after = c :: rest ∧ Place.Passes ⟨some c, rest⟩ cs q := by
  constructor
  · intro h
    refine ⟨cs ++ q.after, h.1, rfl, ?_⟩
    rw [h.2, getLast?_cons_or]
  · intro h
    obtain ⟨rest, hafter, hrest, hbefore⟩ := h
    constructor
    · rw [hafter, show rest = cs ++ q.after from hrest, List.cons_append]
    · rw [hbefore, getLast?_cons_or]

/-- A run ends behind any characters of its class. -/
theorem mem_run {accepts : Char → Bool} {before : Option Char} {cs : List Char} {q : Place} :
    q ∈ Place.run accepts before cs ↔
      ∃ passed, (∀ c ∈ passed, accepts c = true) ∧ Place.Passes ⟨before, cs⟩ passed q := by
  induction cs generalizing before with
  | nil =>
    rw [Place.run, List.mem_singleton]
    constructor
    · intro h
      exact ⟨[], nofun, passes_nil.2 h⟩
    · intro h
      obtain ⟨passed, -, hpasses⟩ := h
      obtain ⟨rfl, -⟩ := List.append_eq_nil_iff.1 hpasses.1.symm
      exact passes_nil.1 hpasses
  | cons c rest ih =>
    rw [Place.run, List.mem_cons]
    constructor
    · intro h
      rcases h with h | h
      · exact ⟨[], nofun, passes_nil.2 h⟩
      · split at h
        · next haccepts =>
          obtain ⟨passed, hpassed, hpasses⟩ := ih.1 h
          exact ⟨c :: passed, List.forall_mem_cons.2 ⟨haccepts, hpassed⟩,
            passes_cons.2 ⟨rest, rfl, hpasses⟩⟩
        · exact absurd h List.not_mem_nil
    · intro h
      obtain ⟨passed, hpassed, hpasses⟩ := h
      cases passed with
      | nil => exact Or.inl (passes_nil.1 hpasses)
      | cons d passed =>
        obtain ⟨others, hcs, hothers⟩ := passes_cons.1 hpasses
        obtain ⟨rfl, rfl⟩ := List.cons.inj hcs
        obtain ⟨haccepts, hpassed⟩ := List.forall_mem_cons.1 hpassed
        rw [if_pos haccepts]
        exact Or.inr (ih.2 ⟨passed, hpassed, hothers⟩)

/-- The last place of a run is behind all characters of its class. -/
theorem getLast?_run (accepts : Char → Bool) (before : Option Char) (cs : List Char) :
    (Place.run accepts before cs).getLast? =
      some ⟨(cs.takeWhile accepts).getLast?.or before, cs.dropWhile accepts⟩ := by
  induction cs generalizing before with
  | nil => rfl
  | cons c rest ih =>
    by_cases hc : accepts c = true
    · simp only [Place.run, hc, if_true, List.takeWhile_cons_of_pos, List.dropWhile_cons_of_pos]
      rw [List.getLast?_cons, ih, getLast?_cons_or]
      rfl
    · simp [Place.run, hc]

/-- A repetition prefers to take all characters of its class. -/
theorem head?_ends_many (accepts : Char → Bool) (p : Place) :
    ((many accepts).ends p).head? =
      some ⟨(p.after.takeWhile accepts).getLast?.or p.before, p.after.dropWhile accepts⟩ := by
  rw [ends, List.head?_reverse, getLast?_run]

/-- What comes before a repetition is as it prefers to be, since the repetition never fails. -/
theorem head?_ends_seq_many {first : Pattern} {p middle : Place} (accepts : Char → Bool)
    (h : (first.ends p).head? = some middle) :
    ((seq first (many accepts)).ends p).head? = ((many accepts).ends middle).head? := by
  obtain ⟨others, hothers⟩ := List.head?_eq_some_iff.1 h
  rw [ends, hothers, List.flatMap_cons, List.head?_append, head?_ends_many, Option.some_or]

/-- An edge matches where it stands or not at all. -/
theorem eq_of_mem_edge {p q : Place} {holds : Bool} (h : q ∈ if holds then [p] else []) :
    q = p := by
  split at h
  · exact List.mem_singleton.1 h
  · exact absurd h List.not_mem_nil

/-- What a match passes is spelled by its pattern. -/
theorem exists_spells_of_mem_ends {pattern : Pattern} {p q : Place} (h : q ∈ pattern.ends p) :
    ∃ cs, pattern.Spells cs ∧ p.Passes cs q := by
  induction pattern generalizing p q with
  | empty => exact ⟨[], rfl, passes_nil.2 (List.mem_singleton.1 h)⟩
  | one accepts =>
    obtain ⟨c, haccepts, hafter, hbefore⟩ := mem_ends_one.1 h
    exact ⟨[c], ⟨c, haccepts, rfl⟩, hafter, hbefore⟩
  | seq first second ihfirst ihsecond =>
    obtain ⟨middle, hmiddle, hq⟩ := List.mem_flatMap.1 h
    obtain ⟨front, hfront, hpasses⟩ := ihfirst hmiddle
    obtain ⟨back, hback, hothers⟩ := ihsecond hq
    exact ⟨front ++ back, ⟨front, back, hfront, hback, rfl⟩,
      passes_append.2 ⟨middle, hpasses, hothers⟩⟩
  | either first second ihfirst ihsecond =>
    rcases List.mem_append.1 h with h | h
    · obtain ⟨cs, hcs, hpasses⟩ := ihfirst h
      exact ⟨cs, Or.inl hcs, hpasses⟩
    · obtain ⟨cs, hcs, hpasses⟩ := ihsecond h
      exact ⟨cs, Or.inr hcs, hpasses⟩
  | many accepts => exact mem_run.1 (List.mem_reverse.1 h)
  | few accepts => exact mem_run.1 h
  | wordEdge | textStart | textEnd => exact ⟨[], rfl, passes_nil.2 (eq_of_mem_edge h)⟩

/-- A plain pattern ends behind whatever it spells. -/
theorem mem_ends_of_spells {pattern : Pattern} (plain : pattern.isPlain = true) {p q : Place}
    {cs : List Char} (spells : pattern.Spells cs) (passes : p.Passes cs q) :
    q ∈ pattern.ends p := by
  induction pattern generalizing p q cs with
  | empty =>
    subst spells
    exact List.mem_singleton.2 (passes_nil.1 passes)
  | one accepts =>
    obtain ⟨c, haccepts, rfl⟩ := spells
    exact mem_ends_one.2 ⟨c, haccepts, passes.1, passes.2⟩
  | seq first second ihfirst ihsecond =>
    obtain ⟨hfirst, hsecond⟩ := (Bool.and_eq_true _ _).mp plain
    obtain ⟨front, back, hfront, hback, rfl⟩ := spells
    obtain ⟨middle, hpasses, hothers⟩ := passes_append.1 passes
    exact List.mem_flatMap.2 ⟨middle, ihfirst hfirst hfront hpasses, ihsecond hsecond hback hothers⟩
  | either first second ihfirst ihsecond =>
    obtain ⟨hfirst, hsecond⟩ := (Bool.and_eq_true _ _).mp plain
    rcases spells with spells | spells
    · exact List.mem_append_left _ (ihfirst hfirst spells passes)
    · exact List.mem_append_right _ (ihsecond hsecond spells passes)
  | many accepts => exact List.mem_reverse.2 (mem_run.2 ⟨cs, spells, passes⟩)
  | few accepts => exact mem_run.2 ⟨cs, spells, passes⟩
  | wordEdge | textStart | textEnd => cases plain

/-- A plain pattern matches where it spells a word. -/
theorem exists_head?_ends_of_spells {pattern : Pattern} (plain : pattern.isPlain = true)
    {word : List Char} (hspells : pattern.Spells word) (before : Option Char) (back : List Char) :
    ∃ e, (pattern.ends ⟨before, word ++ back⟩).head? = some e := by
  have hmem : ⟨word.getLast?.or before, back⟩ ∈ pattern.ends ⟨before, word ++ back⟩ :=
    mem_ends_of_spells plain hspells ⟨rfl, rfl⟩
  exact Option.isSome_iff_exists.1 (List.isSome_head?.2 (List.ne_nil_of_mem hmem))

theorem mem_ends_iff_spells {pattern : Pattern} (plain : pattern.isPlain = true) {p q : Place} :
    q ∈ pattern.ends p ↔ ∃ cs, pattern.Spells cs ∧ p.Passes cs q := by
  constructor
  · exact exists_spells_of_mem_ends
  · intro h
    obtain ⟨cs, spells, passes⟩ := h
    exact mem_ends_of_spells plain spells passes

/-- A plain pattern is found in a text if it spells a part of it. -/
theorem matchesIn_iff_spells {pattern : Pattern} (plain : pattern.isPlain = true)
    {cs : List Char} :
    pattern.matchesIn cs = true ↔ ∃ word, pattern.Spells word ∧ word <:+: cs := by
  rw [matchesIn_iff]
  constructor
  · intro h
    obtain ⟨front, back, q, rfl, hq⟩ := h
    obtain ⟨word, spells, passes⟩ := exists_spells_of_mem_ends hq
    refine ⟨word, spells, front, q.after, ?_⟩
    rw [show back = word ++ q.after from passes.1, List.append_assoc]
  · intro h
    obtain ⟨word, spells, front, back, rfl⟩ := h
    refine ⟨front, word ++ back, ⟨word.getLast?.or front.getLast?, back⟩, ?_, ?_⟩
    · exact List.append_assoc front word back
    · exact mem_ends_of_spells plain spells ⟨rfl, rfl⟩

/-- A plain pattern that is found in a part of a text is found in the text. -/
theorem matchesIn_of_infix {pattern : Pattern} (plain : pattern.isPlain = true)
    {part cs : List Char} (hpart : part <:+: cs) (h : pattern.matchesIn part = true) :
    pattern.matchesIn cs = true := by
  obtain ⟨word, spells, hword⟩ := (matchesIn_iff_spells plain).1 h
  exact (matchesIn_iff_spells plain).2 ⟨word, spells, hword.trans hpart⟩

/-! ## Patterns of whole words -/

/-- Whether a pattern matches the words that fit, and nothing else. -/
def TakesWords (pattern : Pattern) (fits : List Char → Bool) : Prop :=
  ∀ p q, q ∈ pattern.ends p ↔ ∃ word, fits word = true ∧ p.Passes word q ∧
    Text.IsRun Text.isWordChar p.before word q.after

variable {fits : List Char → Bool}

/-- A plain pattern between two edges takes the words that it spells. -/
theorem takesWords_row {shape : Pattern} (plain : shape.isPlain = true)
    (spells_iff : ∀ word, shape.Spells word ↔ fits word = true)
    (worded : ∀ word, fits word = true → word ≠ [] ∧ ∀ c ∈ word, Text.isWordChar c = true) :
    (row [wordEdge, shape, wordEdge]).TakesWords fits := by
  intro p q
  have hhead {word : List Char} (hfits : fits word = true) (back : List Char) :
      (word ++ back).head?.any Text.isWordChar = true := by
    obtain ⟨hne, hword⟩ := worded word hfits
    rw [List.head?_append_of_ne_nil word hne, List.head?_eq_some_head hne, Option.any_some]
    exact hword _ (List.head_mem hne)
  have hlast {word : List Char} (hfits : fits word = true) (before : Option Char) :
      (word.getLast?.or before).any Text.isWordChar = true := by
    obtain ⟨hne, hword⟩ := worded word hfits
    rw [List.getLast?_eq_some_getLast hne, Option.some_or, Option.any_some]
    exact hword _ (List.getLast_mem hne)
  constructor
  · intro h
    obtain ⟨start, hstart, hmore⟩ := mem_ends_row_cons.1 h
    obtain ⟨rfl, hbegins⟩ := mem_ends_wordEdge.1 hstart
    obtain ⟨stop, hstop, hmore⟩ := mem_ends_row_cons.1 hmore
    obtain ⟨word, hspells, hpasses⟩ := exists_spells_of_mem_ends hstop
    have hfits := (spells_iff word).1 hspells
    obtain ⟨last, hedge, hq⟩ := mem_ends_row_cons.1 hmore
    obtain ⟨rfl, hends⟩ := mem_ends_wordEdge.1 hedge
    obtain rfl := mem_ends_row_nil.1 hq
    rw [atWordEdge_of_after (hpasses.1 ▸ hhead hfits _)] at hbegins
    rw [atWordEdge_of_before (hpasses.2 ▸ hlast hfits _)] at hends
    exact ⟨word, hfits, hpasses, (worded word hfits).1, (worded word hfits).2, hbegins, hends⟩
  · intro h
    obtain ⟨word, hfits, hpasses, hrun⟩ := h
    have hstart : p.atWordEdge = true :=
      (atWordEdge_of_after (hpasses.1 ▸ hhead hfits _)).2 hrun.begins
    have hstop : q.atWordEdge = true :=
      (atWordEdge_of_before (hpasses.2 ▸ hlast hfits _)).2 hrun.ends
    have hword : q ∈ shape.ends p :=
      mem_ends_of_spells plain ((spells_iff word).2 hfits) hpasses
    exact mem_ends_row_cons.2 ⟨p, mem_ends_wordEdge.2 ⟨rfl, hstart⟩,
      mem_ends_row_cons.2 ⟨q, hword, mem_ends_wordEdge.2 ⟨rfl, hstop⟩⟩⟩

/-- A pattern of whole words is found in a text if one of its runs of word characters fits. -/
theorem TakesWords.matchesIn_iff {pattern : Pattern} (h : pattern.TakesWords fits)
    {cs : List Char} :
    pattern.matchesIn cs = true ↔ ∃ run ∈ Text.wordRuns cs, fits run.text = true := by
  rw [Pattern.matchesIn_iff]
  constructor
  · intro hmatches
    obtain ⟨front, back, q, rfl, hq⟩ := hmatches
    obtain ⟨word, hfits, hpasses, hrun⟩ := (h _ q).1 hq
    refine ⟨⟨front.length, word⟩, Text.mem_wordRuns_iff.2 ⟨front, q.after, ?_, rfl, hrun⟩, hfits⟩
    rw [← hpasses.1]
  · intro hmatches
    obtain ⟨run, hmem, hfits⟩ := hmatches
    obtain ⟨front, back, hcs, -, hrun⟩ := Text.mem_wordRuns_iff.1 hmem
    refine ⟨front, run.text ++ back, ⟨run.text.getLast?.or front.getLast?, back⟩, hcs, ?_⟩
    exact (h _ _).2 ⟨run.text, hfits, ⟨rfl, rfl⟩, hrun⟩

end Pattern

end CardGate
