import CardGate.Card.Brand
import CardGate.Card.Number
import CardGate.Proofs.Pattern.Language
import Mathlib.Data.List.Induction

/-!
# The shapes of card numbers

The pattern for card numbers is written character by character.  Here it is said in numbers, in the
way in which the brands are: the first digits of a card number lie in a range, and there are as
many digits as the range asks for.

`numberShapes` lists these ranges.  A text holds a card number if one of its words is a number of a
range (`looksLikeNumber_iff`), and a text of digits is one itself or holds none
(`looksLikeNumber_iff_of_digits`).
-/

namespace CardGate.Card

open Pattern

/-! ## Numbers -/

theorem isDigit_iff {c : Char} : c.isDigit = true ↔ 48 ≤ c.toNat ∧ c.toNat ≤ 57 := by
  simp only [Char.isDigit, Bool.and_eq_true, decide_eq_true_eq]
  exact Iff.rfl

theorem digitValue_lt {c : Char} (h : c.isDigit = true) : digitValue c < 10 := by
  have hbounds := isDigit_iff.1 h
  show c.toNat - 48 < 10
  omega

theorem digitValue_inj {c d : Char} (hc : c.isDigit = true) (hd : d.isDigit = true)
    (h : digitValue c = digitValue d) : c = d := by
  have hcbounds := isDigit_iff.1 hc
  have hdbounds := isDigit_iff.1 hd
  apply Char.toNat_inj.1
  change c.toNat - 48 = d.toNat - 48 at h
  omega

theorem number_append_singleton (ds : List Char) (d : Char) :
    number (ds ++ [d]) = number ds * 10 + digitValue d := by
  rw [number, List.foldl_append]
  rfl

/-- Rows of digits of the same length write different numbers. -/
theorem number_inj {ds es : List Char} (hlength : ds.length = es.length)
    (hds : ∀ d ∈ ds, d.isDigit = true) (hes : ∀ e ∈ es, e.isDigit = true)
    (h : number ds = number es) : ds = es := by
  induction ds using List.reverseRecOn generalizing es with
  | nil => exact (List.length_eq_zero_iff.1 hlength.symm).symm
  | append_singleton ds d ih =>
    obtain rfl | ⟨es, e, rfl⟩ := List.eq_nil_or_concat' es
    · simp at hlength
    · rw [number_append_singleton, number_append_singleton] at h
      have hd := hds d (by simp)
      have he := hes e (by simp)
      have hdlt := digitValue_lt hd
      have helt := digitValue_lt he
      have hmore : ds = es := by
        apply ih
        · simpa using hlength
        · exact fun x hx => hds x (List.mem_append_left _ hx)
        · exact fun x hx => hes x (List.mem_append_left _ hx)
        · omega
      rw [hmore, digitValue_inj hd he (by omega)]

/-! ## The first digits -/

/-- Patterns that spell the numbers of so many digits that satisfy a condition. -/
def Leads (patterns : List Pattern) (count : Nat) (starts : Nat → Prop) : Prop :=
  ∀ ds : List Char, (row patterns).Spells ds ↔
    ds.length = count ∧ (∀ d ∈ ds, d.isDigit = true) ∧ starts (number ds)

/-- Given digits spell one number. -/
theorem leads_chars (s : List Char) (count start : Nat) (digits : s.all Char.isDigit = true)
    (hcount : s.length = count) (hstart : number s = start) :
    Leads (s.map char) count (· = start) := by
  subst hcount hstart
  have hdigits := List.all_eq_true.1 digits
  intro ds
  have hmap : s.map char = (s.map fun c d => d == c).map one := by
    rw [List.map_map]
    rfl
  have heq : (fun c d : Char => (d == c) = true) = fun c d => c = d := by
    funext c d
    exact propext (beq_iff_eq.trans eq_comm)
  rw [hmap, spells_row_map_one, List.forall₂_map_left_iff, heq, List.forall₂_eq_eq_eq]
  constructor
  · intro h
    subst h
    exact ⟨rfl, hdigits, rfl⟩
  · intro h
    obtain ⟨hlength, hds, hnumber⟩ := h
    exact (number_inj hlength hds hdigits hnumber).symm

/-- One more digit is the last digit of the number. -/
theorem Leads.one {patterns : List Pattern} {count : Nat} {starts : Nat → Prop}
    {accepts : Char → Bool} (h : Leads patterns count starts) (ends : Nat → Prop)
    (haccepts : ∀ c, accepts c = true ↔ c.isDigit = true ∧ ends (digitValue c)) :
    Leads (patterns ++ [one accepts]) (count + 1) fun n => starts (n / 10) ∧ ends (n % 10) := by
  intro ds
  have hnumber (ds : List Char) {d : Char} (hd : d.isDigit = true) :
      number (ds ++ [d]) / 10 = number ds ∧ number (ds ++ [d]) % 10 = digitValue d := by
    have hlt := digitValue_lt hd
    rw [number_append_singleton]
    omega
  rw [spells_row_append]
  constructor
  · intro hspells
    obtain ⟨front, back, hfront, ⟨d, hd, rfl⟩, rfl⟩ := hspells
    obtain ⟨hlength, hdigits, hstarts⟩ := (h front).1 hfront
    obtain ⟨hdigit, hends⟩ := (haccepts d).1 hd
    obtain ⟨hmost, hlast⟩ := hnumber front hdigit
    refine ⟨?_, ?_, hmost ▸ hstarts, hlast ▸ hends⟩
    · rw [List.length_append, hlength, List.length_singleton]
    · exact List.forall_mem_append.2 ⟨hdigits, List.forall_mem_singleton.2 hdigit⟩
  · intro hnumbered
    obtain ⟨hlength, hdigits, hstarts, hends⟩ := hnumbered
    obtain rfl | ⟨front, d, rfl⟩ := List.eq_nil_or_concat' ds
    · cases hlength
    · obtain ⟨hfront, hback⟩ := List.forall_mem_append.1 hdigits
      have hdigit := List.forall_mem_singleton.1 hback
      obtain ⟨hmost, hlast⟩ := hnumber front hdigit
      rw [hmost] at hstarts
      rw [hlast] at hends
      refine ⟨front, [d], (h front).2 ⟨?_, hfront, hstarts⟩, ?_, rfl⟩
      · rw [List.length_append, List.length_singleton] at hlength
        omega
      · exact ⟨d, (haccepts d).2 ⟨hdigit, hends⟩, rfl⟩

theorem Leads.between {patterns : List Pattern} {count : Nat} {starts : Nat → Prop}
    (h : Leads patterns count starts) {low high : Char} (hlow : low.isDigit = true)
    (hhigh : high.isDigit = true) :
    Leads (patterns ++ [between low high]) (count + 1) fun n =>
      starts (n / 10) ∧ digitValue low ≤ n % 10 ∧ n % 10 ≤ digitValue high := by
  refine h.one (fun d => digitValue low ≤ d ∧ d ≤ digitValue high) fun c => ?_
  have hle (a b : Char) : a ≤ b ↔ a.toNat ≤ b.toNat := Iff.rfl
  have hvalue (c : Char) : digitValue c = c.toNat - 48 := rfl
  rw [isDigit_iff] at hlow hhigh
  rw [Bool.and_eq_true, decide_eq_true_eq, decide_eq_true_eq, isDigit_iff, hle, hle, hvalue,
    hvalue, hvalue]
  omega

/-- One more digit, which may be one of two. -/
theorem Leads.oneOf {patterns : List Pattern} {count : Nat} {starts : Nat → Prop}
    (h : Leads patterns count starts) {a b : Char} (ha : a.isDigit = true)
    (hb : b.isDigit = true) :
    Leads (patterns ++ [Pattern.one fun c => c == a || c == b]) (count + 1) fun n =>
      starts (n / 10) ∧ (n % 10 = digitValue a ∨ n % 10 = digitValue b) := by
  refine h.one (fun d => d = digitValue a ∨ d = digitValue b) fun c => ?_
  rw [Bool.or_eq_true, beq_iff_eq, beq_iff_eq]
  constructor
  · intro hc
    rcases hc with rfl | rfl
    · exact ⟨ha, Or.inl rfl⟩
    · exact ⟨hb, Or.inr rfl⟩
  · intro hc
    obtain ⟨hdigit, hvalue⟩ := hc
    exact hvalue.imp (digitValue_inj hdigit ha) (digitValue_inj hdigit hb)

/-! ## The other digits -/

/-- Patterns that spell the rows of digits whose number satisfies a condition. -/
def Trails (patterns : List Pattern) (size : Nat → Prop) : Prop :=
  ∀ ds : List Char, (row patterns).Spells ds ↔ size ds.length ∧ ∀ d ∈ ds, d.isDigit = true

theorem trails_nil : Trails [] (· = 0) := by
  intro ds
  rw [spells_row_nil, ← List.length_eq_zero_iff]
  constructor
  · intro h
    rw [List.length_eq_zero_iff.1 h]
    exact ⟨rfl, nofun⟩
  · exact And.left

theorem Trails.times {patterns : List Pattern} {size : Nat → Prop} (h : Trails patterns size)
    (n : Nat) :
    Trails (times n digit :: patterns) fun count => n ≤ count ∧ size (count - n) := by
  intro ds
  rw [spells_row_cons]
  constructor
  · intro hspells
    obtain ⟨front, back, hfront, hback, rfl⟩ := hspells
    obtain ⟨hlength, hdigits⟩ := spells_times_one.1 hfront
    obtain ⟨hsize, hmore⟩ := (h back).1 hback
    rw [List.length_append, hlength]
    refine ⟨⟨Nat.le_add_right n _, ?_⟩, List.forall_mem_append.2 ⟨hdigits, hmore⟩⟩
    rwa [Nat.add_sub_cancel_left]
  · intro hnumbered
    obtain ⟨⟨hle, hsize⟩, hdigits⟩ := hnumbered
    refine ⟨ds.take n, ds.drop n, spells_times_one.2 ⟨?_, ?_⟩, (h _).2 ⟨?_, ?_⟩, ?_⟩
    · exact List.length_take_of_le hle
    · exact fun d hd => hdigits d (List.mem_of_mem_take hd)
    · rwa [List.length_drop]
    · exact fun d hd => hdigits d (List.mem_of_mem_drop hd)
    · exact (List.take_append_drop n ds).symm

theorem Trails.maybe {pattern : Pattern} {patterns : List Pattern} {size more : Nat → Prop}
    (h : Trails patterns size) (hmore : Trails (pattern :: patterns) more) :
    Trails (maybe pattern :: patterns) fun count => more count ∨ size count := by
  intro ds
  have heither : (row (either pattern empty :: patterns)).Spells ds ↔
      (row (pattern :: patterns)).Spells ds ∨ (row (empty :: patterns)).Spells ds :=
    spells_row_either []
  have hempty : (row (empty :: patterns)).Spells ds ↔ (row patterns).Spells ds :=
    spells_row_row [] []
  rw [Pattern.maybe, heither, hempty, hmore, h, or_and_right]

/-! ## Numbers of a shape -/

/-- Digits that lead and digits that trail spell the numbers with so many digits of which the first
satisfy the condition. -/
theorem Leads.spells_append {patterns more : List Pattern} {count : Nat} {starts size : Nat → Prop}
    (h : Leads patterns count starts) (hmore : Trails more size) {cs : List Char} :
    (row (patterns ++ more)).Spells cs ↔
      (∀ c ∈ cs, c.isDigit = true) ∧ count ≤ cs.length ∧ size (cs.length - count) ∧
        starts (number (cs.take count)) := by
  rw [spells_row_append]
  constructor
  · intro hspells
    obtain ⟨front, back, hfront, hback, rfl⟩ := hspells
    obtain ⟨rfl, hdigits, hstarts⟩ := (h front).1 hfront
    obtain ⟨hsize, htrails⟩ := (hmore back).1 hback
    rw [List.length_append, Nat.add_sub_cancel_left, List.take_left]
    exact ⟨List.forall_mem_append.2 ⟨hdigits, htrails⟩, Nat.le_add_right _ _, hsize, hstarts⟩
  · intro hnumbered
    obtain ⟨hdigits, hle, hsize, hstarts⟩ := hnumbered
    refine ⟨cs.take count, cs.drop count, (h _).2 ⟨?_, ?_, hstarts⟩, (hmore _).2 ⟨?_, ?_⟩, ?_⟩
    · exact List.length_take_of_le hle
    · exact fun d hd => hdigits d (List.mem_of_mem_take hd)
    · rwa [List.length_drop]
    · exact fun d hd => hdigits d (List.mem_of_mem_drop hd)
    · exact (List.take_append_drop count cs).symm

theorem NumberRange.contains_iff {range : NumberRange} {cs : List Char} :
    range.contains cs = true ↔
      (∀ c ∈ cs, c.isDigit = true) ∧ cs.length ∈ range.lengths ∧
        range.low ≤ number (cs.take range.lead) ∧ number (cs.take range.lead) ≤ range.high := by
  simp only [NumberRange.contains, Bool.and_eq_true, List.all_eq_true, List.contains_iff_mem,
    decide_eq_true_eq, and_assoc]

/-- Whether a pattern spells the numbers of given ranges and nothing else. -/
def Writes (pattern : Pattern) (ranges : List NumberRange) : Prop :=
  ∀ cs, pattern.Spells cs ↔ ∃ range ∈ ranges, range.contains cs = true

/-- Digits that lead and digits that trail write the numbers of given ranges, if these go by the
number of digits and by as many of them as lead. -/
theorem Leads.writes {patterns more : List Pattern} {count : Nat} {starts size : Nat → Prop}
    (h : Leads patterns count starts) (hmore : Trails more size) {ranges : List NumberRange}
    (hlead : ∀ range ∈ ranges, range.lead = count)
    (hfits : ∀ length start, (count ≤ length ∧ size (length - count) ∧ starts start) ↔
      ∃ range ∈ ranges, length ∈ range.lengths ∧ range.low ≤ start ∧ start ≤ range.high) :
    Writes (row (patterns ++ more)) ranges := by
  intro cs
  rw [h.spells_append hmore, hfits]
  constructor
  · intro hnumbered
    obtain ⟨hdigits, range, hrange, hfit⟩ := hnumbered
    rw [← hlead range hrange] at hfit
    exact ⟨range, hrange, NumberRange.contains_iff.2 ⟨hdigits, hfit⟩⟩
  · intro hcontains
    obtain ⟨range, hrange, hcontains⟩ := hcontains
    obtain ⟨hdigits, hfit⟩ := NumberRange.contains_iff.1 hcontains
    rw [hlead range hrange] at hfit
    exact ⟨hdigits, range, hrange, hfit⟩

/-- A choice writes the numbers of both. -/
theorem writes_either {first second : Pattern} {ranges others : List NumberRange}
    (hfirst : Writes first ranges) (hsecond : Writes second others) :
    Writes (either first second) (ranges ++ others) := by
  intro cs
  rw [Spells, hfirst, hsecond]
  simp only [List.mem_append, or_and_right, exists_or]

theorem writes_row_either (patterns : List Pattern) {first second : Pattern}
    {more : List Pattern} {ranges others : List NumberRange}
    (hfirst : Writes (row (patterns ++ first :: more)) ranges)
    (hsecond : Writes (row (patterns ++ second :: more)) others) :
    Writes (row (patterns ++ either first second :: more)) (ranges ++ others) :=
  fun cs => (spells_row_either patterns).trans (writes_either hfirst hsecond cs)

theorem writes_row_row (patterns inner : List Pattern) {more : List Pattern}
    {ranges : List NumberRange} (h : Writes (row (patterns ++ (inner ++ more))) ranges) :
    Writes (row (patterns ++ row inner :: more)) ranges :=
  fun cs => (spells_row_row patterns inner).trans (h cs)

/-! ## The shapes of the schemes -/

theorem writes_visa :
    Writes (row [char '4', times 12 digit, maybe (times 3 digit)]) [⟨1, 4, 4, [13, 16]⟩] := by
  refine (leads_chars ['4'] 1 4 rfl rfl rfl).writes
    ((trails_nil.maybe (trails_nil.times 3)).times 12) (by decide) fun length start => ?_
  simp only [List.mem_cons, List.not_mem_nil, or_false, exists_eq_left]
  omega

theorem writes_mastercard :
    Writes (row [char '5', between '1' '5', times 14 digit]) [⟨2, 51, 55, [16]⟩] := by
  refine ((leads_chars ['5'] 1 5 rfl rfl rfl).between rfl rfl).writes
    (trails_nil.times 14) (by decide) fun length start => ?_
  simp only [digitValue, Char.reduceToNat, List.mem_cons, List.not_mem_nil, or_false,
    exists_eq_left]
  omega

theorem writes_amex :
    Writes (row [char '3', one fun c => c == '4' || c == '7', times 13 digit])
      [⟨2, 34, 34, [15]⟩, ⟨2, 37, 37, [15]⟩] := by
  refine ((leads_chars ['3'] 1 3 rfl rfl rfl).oneOf rfl rfl).writes
    (trails_nil.times 13) (by decide) fun length start => ?_
  simp only [digitValue, Char.reduceToNat, List.mem_cons, List.not_mem_nil, or_false,
    exists_eq_or_imp, exists_eq_left]
  omega

theorem writes_diners :
    Writes (row [char '3',
        either (row [char '0', between '0' '5']) (row [one fun c => c == '6' || c == '8', digit]),
        times 11 digit])
      [⟨3, 300, 305, [14]⟩, ⟨2, 36, 36, [14]⟩, ⟨2, 38, 38, [14]⟩] := by
  have hzero : Writes (row [char '3', char '0', between '0' '5', times 11 digit])
      [⟨3, 300, 305, [14]⟩] := by
    refine ((leads_chars ['3', '0'] 2 30 rfl rfl rfl).between rfl rfl).writes
      (trails_nil.times 11) (by decide) fun length start => ?_
    simp only [digitValue, Char.reduceToNat, List.mem_cons, List.not_mem_nil, or_false,
      exists_eq_left]
    omega
  have hother : Writes
      (row [char '3', one fun c => c == '6' || c == '8', digit, times 11 digit])
      [⟨2, 36, 36, [14]⟩, ⟨2, 38, 38, [14]⟩] := by
    refine ((leads_chars ['3'] 1 3 rfl rfl rfl).oneOf rfl rfl).writes
      ((trails_nil.times 11).times 1) (by decide) fun length start => ?_
    simp only [digitValue, Char.reduceToNat, List.mem_cons, List.not_mem_nil, or_false,
      exists_eq_or_imp, exists_eq_left]
    omega
  exact writes_row_either [char '3'] (writes_row_row [char '3'] [_, _] hzero)
    (writes_row_row [char '3'] [_, _] hother)

theorem writes_discover :
    Writes (row [char '6', either (literal "011") (row [char '5', times 2 digit]),
        times 12 digit])
      [⟨4, 6011, 6011, [16]⟩, ⟨2, 65, 65, [16]⟩] := by
  have hlong : Writes (row (('6' :: "011".toList).map char ++ [times 12 digit]))
      [⟨4, 6011, 6011, [16]⟩] := by
    refine (leads_chars ('6' :: "011".toList) 4 6011 rfl rfl rfl).writes
      (trails_nil.times 12) (by decide) fun length start => ?_
    simp only [List.mem_cons, List.not_mem_nil, or_false, exists_eq_left]
    omega
  have hshort : Writes (row [char '6', char '5', times 2 digit, times 12 digit])
      [⟨2, 65, 65, [16]⟩] := by
    refine (leads_chars ['6', '5'] 2 65 rfl rfl rfl).writes
      ((trails_nil.times 12).times 2) (by decide) fun length start => ?_
    simp only [List.mem_cons, List.not_mem_nil, or_false, exists_eq_left]
    omega
  exact writes_row_either [char '6'] (writes_row_row [char '6'] ("011".toList.map char) hlong)
    (writes_row_row [char '6'] [_, _] hshort)

theorem writes_jcb :
    Writes (row [either (literal "2131")
          (either (literal "1800") (row [literal "35", times 3 digit])),
        times 11 digit])
      [⟨4, 2131, 2131, [15]⟩, ⟨4, 1800, 1800, [15]⟩, ⟨2, 35, 35, [16]⟩] := by
  have hfour (s : String) (start : Nat) (digits : s.toList.all Char.isDigit = true)
      (hcount : s.toList.length = 4) (hstart : number s.toList = start) :
      Writes (row [literal s, times 11 digit]) [⟨4, start, start, [15]⟩] := by
    refine writes_row_row [] (s.toList.map char)
      ((leads_chars s.toList 4 start digits hcount hstart).writes (trails_nil.times 11)
        (List.forall_mem_singleton.2 rfl) fun length lead => ?_)
    simp only [List.mem_cons, List.not_mem_nil, or_false, exists_eq_left]
    omega
  have htwo : Writes (row ("35".toList.map char ++ [times 3 digit, times 11 digit]))
      [⟨2, 35, 35, [16]⟩] := by
    refine (leads_chars "35".toList 2 35 rfl rfl rfl).writes
      ((trails_nil.times 11).times 3) (by decide) fun length start => ?_
    simp only [List.mem_cons, List.not_mem_nil, or_false, exists_eq_left]
    omega
  exact writes_row_either [] (hfour "2131" 2131 rfl rfl rfl)
    (writes_row_either [] (hfour "1800" 1800 rfl rfl rfl)
      (writes_row_row [] [_, _] (writes_row_row [] ("35".toList.map char) htwo)))

/-- The ranges of the numbers that are recognised in text. -/
def numberShapes : List NumberRange :=
  [⟨1, 4, 4, [13, 16]⟩,
   ⟨2, 51, 55, [16]⟩,
   ⟨2, 34, 34, [15]⟩, ⟨2, 37, 37, [15]⟩,
   ⟨3, 300, 305, [14]⟩, ⟨2, 36, 36, [14]⟩, ⟨2, 38, 38, [14]⟩,
   ⟨4, 6011, 6011, [16]⟩, ⟨2, 65, 65, [16]⟩,
   ⟨4, 2131, 2131, [15]⟩, ⟨4, 1800, 1800, [15]⟩, ⟨2, 35, 35, [16]⟩]

/-- The pattern for card numbers is that of the words of these shapes. -/
theorem exists_writes_numberShapes :
    ∃ shape : Pattern, numberPattern = row [wordEdge, shape, wordEdge] ∧ shape.isPlain = true ∧
      Writes shape numberShapes := by
  refine ⟨_, rfl, rfl, ?_⟩
  exact writes_either writes_visa (writes_either writes_mastercard (writes_either writes_amex
    (writes_either writes_diners (writes_either writes_discover writes_jcb))))

/-- Whether a word is a number of one of the shapes. -/
def isNumberWord (word : List Char) : Bool :=
  numberShapes.any (·.contains word)

theorem isNumberWord_iff {word : List Char} :
    isNumberWord word = true ↔ ∃ range ∈ numberShapes, range.contains word = true :=
  List.any_eq_true

theorem ne_nil_of_isNumberWord {word : List Char} (h : isNumberWord word = true) : word ≠ [] := by
  obtain ⟨range, hrange, hcontains⟩ := isNumberWord_iff.1 h
  obtain ⟨-, hlength, -⟩ := NumberRange.contains_iff.1 hcontains
  have hlong : ∀ range ∈ numberShapes, 0 ∉ range.lengths := by decide
  intro hnil
  rw [hnil] at hlength
  exact hlong range hrange hlength

theorem isWordChar_of_digits {word : List Char} (h : ∀ c ∈ word, c.isDigit = true) :
    ∀ c ∈ word, Text.isWordChar c = true :=
  fun c hc => isWordChar_of_isDigit (h c hc)

/-- The pattern of card numbers takes whole words. -/
theorem takesWords_numberPattern : numberPattern.TakesWords isNumberWord := by
  obtain ⟨shape, hpattern, plain, hwrites⟩ := exists_writes_numberShapes
  rw [hpattern]
  refine takesWords_row plain (fun word => (hwrites word).trans isNumberWord_iff.symm) ?_
  intro word hword
  obtain ⟨range, -, hcontains⟩ := isNumberWord_iff.1 hword
  have hdigits := (NumberRange.contains_iff.1 hcontains).1
  exact ⟨ne_nil_of_isNumberWord hword, isWordChar_of_digits hdigits⟩

/-- A text holds a card number if one of its runs of word characters is one. -/
theorem looksLikeNumber_iff {s : String} :
    looksLikeNumber s = true ↔ ∃ run ∈ Text.wordRuns s.toList, isNumberWord run.text = true :=
  takesWords_numberPattern.matchesIn_iff

/-- A row of digits is a single word, so it is of one of the shapes or holds no card number. -/
theorem looksLikeNumber_iff_of_digits {s : String} (digits : ∀ c ∈ s.toList, c.isDigit = true) :
    looksLikeNumber s = true ↔ ∃ range ∈ numberShapes, range.contains s.toList = true := by
  rw [looksLikeNumber_iff, ← isNumberWord_iff]
  by_cases hnil : s.toList = []
  · rw [hnil]
    exact iff_of_false nofun (by decide)
  · rw [Text.wordRuns_of_word hnil (isWordChar_of_digits digits)]
    simp only [List.mem_singleton, exists_eq_left]

end CardGate.Card
