import CardGate.Proofs.Card.Shapes

/-!
# What the check digit guards against

The digits of a number are summed from right to left, and every second one is doubled.  A stretch
in the middle therefore adds to the sum what it would add alone, in one phase of the doubling or the
other, and the phase depends on nothing but how many digits are to its right
(`exists_luhnSum_middle`).  A stretch of digits that takes the place of another one of the same
length leaves the number right if and only if both add the same, up to tens (`isLuhn_middle`).

The sum is a number of 32 bits, and a number whose digits add up to more is not judged at all
(`isLuhn?_eq_none_iff`).  `addDigits?_eq` says that this is the only difference to a sum without
bounds, so that all that follows is about `weightedSum`.

What is left is arithmetic of one digit and of two.  Doubling permutes the ten digits, so no other
digit adds the same (`weigh_inj`).  Two neighbours add the same when they are swapped only if they
are equal or 0 and 9 (`weigh_swap_iff`).

`CheckDigitGuards` puts the laws together, and by `checkDigit_guards` they hold of every text.
-/

namespace CardGate.Card

/-! ## One digit and two -/

/-- A doubled digit adds its double, less nine if that has two digits. -/
theorem doubled_cases {d : Nat} (h : d < 10) :
    d < 5 ∧ doubled d = 2 * d ∨ 5 ≤ d ∧ doubled d + 9 = 2 * d := by
  unfold doubled
  omega

/-- Different digits add different amounts, up to tens. -/
theorem weigh_inj (double : Bool) {d e : Nat} (hd : d < 10) (he : e < 10)
    (h : weigh double d % 10 = weigh double e % 10) : d = e := by
  have hdDoubled := doubled_cases hd
  have heDoubled := doubled_cases he
  cases double with
  | false =>
    change d % 10 = e % 10 at h
    omega
  | true =>
    change doubled d % 10 = doubled e % 10 at h
    omega

/-- Two neighbours add the same in either order only if they are equal, or 0 and 9. -/
theorem weigh_swap_iff (double : Bool) {d e : Nat} (hd : d < 10) (he : e < 10) :
    (weigh double d + weigh (!double) e) % 10 = (weigh double e + weigh (!double) d) % 10 ↔
      e = d ∨ d = 0 ∧ e = 9 ∨ d = 9 ∧ e = 0 := by
  have hdDoubled := doubled_cases hd
  have heDoubled := doubled_cases he
  cases double with
  | false =>
    show (d + doubled e) % 10 = (e + doubled d) % 10 ↔ _
    omega
  | true =>
    show (doubled d + e) % 10 = (doubled e + d) % 10 ↔ _
    omega

theorem digitValue_digitChar {n : Nat} (h : n < 10) : digitValue (digitChar n) = n := by
  decide +revert

theorem digitChar_digitValue {c : Char} (h : c.isDigit = true) : digitChar (digitValue c) = c := by
  have hbounds := isDigit_iff.1 h
  have hvalue : 48 + (c.toNat - 48) = c.toNat := by omega
  show Char.ofNat (48 + (c.toNat - 48)) = c
  rw [hvalue, Char.ofNat_toNat]

/-- A digit is told by its value. -/
theorem eq_digitChar_iff {c : Char} {n : Nat} (hc : c.isDigit = true) (hn : n < 10) :
    c = digitChar n ↔ digitValue c = n := by
  constructor
  · rintro rfl
    exact digitValue_digitChar hn
  · rintro rfl
    exact (digitChar_digitValue hc).symm

/-! ## The sum -/

/-- The weighted sum of digits given from right to left. -/
def weightedSum (double : Bool) : List Nat → Nat
  | [] => 0
  | d :: rest => weigh double d + weightedSum (!double) rest

/-- Adding digits gives their weighted sum, as long as that fits 32 bits. -/
theorem addDigits?_eq (double : Bool) (sum : UInt32) (digits : List Nat) :
    addDigits? double sum digits = Counter.add? sum (weightedSum double digits) := by
  induction digits generalizing double sum with
  | nil => exact (Counter.add?_eq_some_iff.2 rfl).symm
  | cons d rest ih => simp only [addDigits?, ih, Counter.add?_bind_add?, weightedSum]

/-- No digit adds more than nine. -/
theorem weightedSum_le (double : Bool) {digits : List Nat} (h : ∀ d ∈ digits, d < 10) :
    weightedSum double digits ≤ 9 * digits.length := by
  induction digits generalizing double with
  | nil => exact Nat.le_refl 0
  | cons d rest ih =>
    have hrest := ih (!double) fun e he => h e (List.mem_cons_of_mem d he)
    have hweigh : weigh double d ≤ 9 := by
      have hd := h d List.mem_cons_self
      have hdoubled := doubled_cases hd
      cases double with
      | false => exact Nat.le_of_lt_succ hd
      | true =>
        show doubled d ≤ 9
        omega
    rw [weightedSum, List.length_cons]
    omega

/-- The sum of a row of digits, the last of which is not doubled. -/
def luhnSum (digits : List Char) : Nat :=
  weightedSum false (digits.reverse.map digitValue)

/-- What comes behind so many digits goes on in the phase that they leave. -/
theorem weightedSum_append (double : Bool) (front back : List Nat) :
    weightedSum double (front ++ back) =
      weightedSum double front +
        weightedSum (if front.length % 2 = 0 then double else !double) back := by
  induction front generalizing double with
  | nil => simp [weightedSum]
  | cons d front ih =>
    have hphase : (if front.length % 2 = 0 then !double else !!double) =
        if (d :: front).length % 2 = 0 then double else !double := by
      rw [List.length_cons, Bool.not_not]
      rcases Nat.mod_two_eq_zero_or_one front.length with heven | hodd
      · rw [if_pos heven, if_neg (by omega)]
      · rw [if_neg (by omega), if_pos (by omega)]
    rw [List.cons_append, weightedSum, weightedSum, ih, hphase, Nat.add_assoc]

/-- A stretch of digits adds what it would add alone, in the phase that its place gives it. -/
theorem exists_luhnSum_middle (front back : List Char) (count : Nat) :
    ∃ rest phase, ∀ mid : List Char, mid.length = count →
      luhnSum (front ++ (mid ++ back)) = rest + weightedSum phase (mid.reverse.map digitValue) := by
  let phase := if back.length % 2 = 0 then false else true
  let after := if count % 2 = 0 then phase else !phase
  refine ⟨luhnSum back + weightedSum after (front.reverse.map digitValue), phase, ?_⟩
  intro mid hmid
  have hvalues : (front ++ (mid ++ back)).reverse.map digitValue =
      back.reverse.map digitValue ++
        (mid.reverse.map digitValue ++ front.reverse.map digitValue) := by
    simp
  have hback : (back.reverse.map digitValue).length = back.length := by simp
  have hcount : (mid.reverse.map digitValue).length = count := by simp [hmid]
  unfold luhnSum
  rw [hvalues, weightedSum_append, weightedSum_append, hback, hcount]
  show _ + (weightedSum phase _ + weightedSum after _) = _
  omega

/-! ## Separators -/

/-- What is ignored between digits. -/
def IsSeparator (c : Char) : Prop :=
  c = ' ' ∨ c = '-'

instance (c : Char) : Decidable (IsSeparator c) :=
  inferInstanceAs (Decidable (_ ∨ _))

/-- Whether a text is another one with separators put in. -/
inductive Spaced : List Char → List Char → Prop
  | nil : Spaced [] []
  | keep {cs spaced : List Char} (c : Char) (more : Spaced cs spaced) :
    Spaced (c :: cs) (c :: spaced)
  | insert {cs spaced : List Char} {c : Char} (separator : IsSeparator c)
      (more : Spaced cs spaced) : Spaced cs (c :: spaced)

theorem stripSeparators_append (front back : List Char) :
    stripSeparators (front ++ back) = stripSeparators front ++ stripSeparators back :=
  List.filter_append front back

theorem stripSeparators_cons_of_separator {c : Char} (h : IsSeparator c) (cs : List Char) :
    stripSeparators (c :: cs) = stripSeparators cs := by
  apply List.filter_cons_of_neg
  rcases h with rfl | rfl
  · simp
  · simp

/-- Without its separators a text is the same wherever they stood. -/
theorem Spaced.stripSeparators_eq {cs spaced : List Char} (h : Spaced cs spaced) :
    stripSeparators spaced = stripSeparators cs := by
  induction h with
  | nil => rfl
  | keep c more ih =>
    unfold stripSeparators at ih ⊢
    rw [List.filter_cons, List.filter_cons, ih]
  | insert separator more ih => rw [stripSeparators_cons_of_separator separator, ih]

/-- Every text is what is left of it with its separators put in. -/
theorem spaced_stripSeparators (cs : List Char) : Spaced (stripSeparators cs) cs := by
  induction cs with
  | nil => exact .nil
  | cons c cs ih =>
    by_cases hc : IsSeparator c
    · rw [stripSeparators_cons_of_separator hc]
      exact .insert hc ih
    · have hkept : stripSeparators (c :: cs) = c :: stripSeparators cs := by
        apply List.filter_cons_of_pos
        simpa [IsSeparator, not_or] using hc
      rw [hkept]
      exact .keep c ih

/-- Of digits and separators the digits are left. -/
theorem stripSeparators_eq_filter {cs : List Char}
    (h : ∀ c ∈ cs, c.isDigit = true ∨ IsSeparator c) :
    stripSeparators cs = cs.filter Char.isDigit := by
  apply List.filter_congr
  intro c hc
  rcases h c hc with hdigit | rfl | rfl
  · rw [hdigit]
    exact not_separator_of_digit hdigit
  · rfl
  · rfl

/-! ## Right numbers -/

/-- The sum of the digits of a number, with separators allowed. -/
def digitSum (cs : List Char) : Nat :=
  luhnSum (stripSeparators cs)

/-- Whether a text is a number that can have a check digit: digits and separators, and two digits at
least. -/
def IsNumber (cs : List Char) : Prop :=
  2 ≤ (stripSeparators cs).length ∧ ∀ c ∈ stripSeparators cs, c.isDigit = true

/-- The sum grows with the number of digits. -/
theorem digitSum_le {digits : List Char} (h : ∀ c ∈ digits, c.isDigit = true) :
    digitSum digits ≤ 9 * digits.length := by
  rw [digitSum, stripSeparators_of_digits h, luhnSum]
  have hvalues : ∀ d ∈ digits.reverse.map digitValue, d < 10 := by
    intro d hd
    obtain ⟨c, hc, rfl⟩ := List.mem_map.1 hd
    exact digitValue_lt (h c (List.mem_reverse.1 hc))
  have hle := weightedSum_le false hvalues
  rwa [List.length_map, List.length_reverse] at hle

/-- A number is judged by its digit sum, and what is no number is wrong. -/
theorem isLuhn?_eq (cs : List Char) :
    isLuhn? cs = if 2 ≤ (stripSeparators cs).length ∧ (stripSeparators cs).all Char.isDigit then
      (Counter.add? 0 (digitSum cs)).map (· % 10 == 0) else some false := by
  rw [isLuhn?, addDigits?_eq]
  have hbad : ((stripSeparators cs).length < 2 || !(stripSeparators cs).all Char.isDigit) = true ↔
      ¬(2 ≤ (stripSeparators cs).length ∧ (stripSeparators cs).all Char.isDigit = true) := by
    rw [Bool.or_eq_true, decide_eq_true_iff, Bool.not_eq_true', not_and_or, Nat.not_le,
      Bool.not_eq_true]
  by_cases hgood : 2 ≤ (stripSeparators cs).length ∧ (stripSeparators cs).all Char.isDigit = true
  · rw [if_neg fun h => hbad.1 h hgood, if_pos hgood]
    rfl
  · rw [if_pos (hbad.2 hgood), if_neg hgood]

/-- A number whose digit sum fits 32 bits is right if the sum is a multiple of ten, and wrong
otherwise. -/
theorem isLuhn?_of_number {cs : List Char} (h : IsNumber cs) (fits : digitSum cs < UInt32.size) :
    isLuhn? cs = some (decide (digitSum cs % 10 = 0)) := by
  obtain ⟨sum, hsum, hvalue⟩ := Counter.exists_add? 0 (digitSum cs)
    (by rwa [UInt32.toNat_zero, Nat.zero_add])
  rw [isLuhn?_eq, if_pos ⟨h.1, List.all_eq_true.2 h.2⟩, hsum, Option.map_some]
  congr 1
  rw [beq_eq_decide]
  apply decide_eq_decide.2
  rw [← UInt32.toNat_inj, UInt32.toNat_mod, hvalue, UInt32.toNat_zero, Nat.zero_add]
  rfl

/-- The test gives up on the numbers whose digit sum leaves 32 bits, and on no other text. -/
theorem isLuhn?_eq_none_iff {cs : List Char} :
    isLuhn? cs = none ↔ IsNumber cs ∧ UInt32.size ≤ digitSum cs := by
  rw [isLuhn?_eq]
  split
  · next h =>
    rw [Option.map_eq_none_iff, Counter.add?_eq_none_iff, UInt32.toNat_zero, Nat.zero_add]
    exact ⟨fun hlarge => ⟨⟨h.1, List.all_eq_true.1 h.2⟩, hlarge⟩, And.right⟩
  · next h =>
    refine ⟨nofun, fun hnumber => absurd ⟨hnumber.1.1, List.all_eq_true.2 hnumber.1.2⟩ h⟩

/-- What is right is a number, and its digit sum is a multiple of ten in 32 bits. -/
theorem isLuhn?_eq_true_iff {cs : List Char} :
    isLuhn? cs = some true ↔
      IsNumber cs ∧ digitSum cs < UInt32.size ∧ digitSum cs % 10 = 0 := by
  by_cases hnumber : IsNumber cs
  · by_cases hfits : digitSum cs < UInt32.size
    · rw [isLuhn?_of_number hnumber hfits, Option.some.injEq, decide_eq_true_iff]
      exact ⟨fun hzero => ⟨hnumber, hfits, hzero⟩, fun h => h.2.2⟩
    · rw [isLuhn?_eq_none_iff.2 ⟨hnumber, Nat.not_lt.1 hfits⟩]
      exact ⟨nofun, fun h => absurd h.2.1 hfits⟩
  · rw [isLuhn?_eq, if_neg fun h => hnumber ⟨h.1, List.all_eq_true.1 h.2⟩]
    exact ⟨nofun, fun h => absurd h.1 hnumber⟩

/-- With digits in the place of as many others a right number is right if and only if both add the
same, up to tens. -/
theorem isLuhn?_middle (front back : List Char) (count : Nat) :
    ∃ phase, ∀ mid other : List Char, mid.length = count → other.length = count →
      (∀ d ∈ mid, d.isDigit = true) → (∀ d ∈ other, d.isDigit = true) →
      isLuhn? (front ++ (mid ++ back)) = some true →
      digitSum (front ++ (other ++ back)) < UInt32.size →
        isLuhn? (front ++ (other ++ back)) =
          some (decide (weightedSum phase (other.reverse.map digitValue) % 10 =
            weightedSum phase (mid.reverse.map digitValue) % 10)) := by
  obtain ⟨rest, phase, hsum⟩ :=
    exists_luhnSum_middle (stripSeparators front) (stripSeparators back) count
  refine ⟨phase, fun mid other hmid hother hmidDigits hotherDigits hluhn hfits => ?_⟩
  have hstrip {ds : List Char} (hds : ∀ d ∈ ds, d.isDigit = true) :
      stripSeparators (front ++ (ds ++ back)) =
        stripSeparators front ++ (ds ++ stripSeparators back) := by
    rw [stripSeparators_append, stripSeparators_append, stripSeparators_of_digits hds]
  have hmidSum : digitSum (front ++ (mid ++ back)) =
      rest + weightedSum phase (mid.reverse.map digitValue) := by
    rw [digitSum, hstrip hmidDigits, hsum mid hmid]
  have hotherSum : digitSum (front ++ (other ++ back)) =
      rest + weightedSum phase (other.reverse.map digitValue) := by
    rw [digitSum, hstrip hotherDigits, hsum other hother]
  obtain ⟨⟨hlength, hdigits⟩, -, hzero⟩ := isLuhn?_eq_true_iff.1 hluhn
  rw [hstrip hmidDigits] at hlength hdigits
  have hnumber : IsNumber (front ++ (other ++ back)) := by
    rw [IsNumber, hstrip hotherDigits]
    simp only [List.length_append, List.forall_mem_append] at hlength hdigits ⊢
    exact ⟨by omega, hdigits.1, hotherDigits, hdigits.2.2⟩
  rw [isLuhn?_of_number hnumber hfits, Option.some.injEq]
  apply decide_eq_decide.2
  omega

/-- One digit makes a number of digits and separators right. -/
theorem isLuhn?_append_digit {cs : List Char} (hcs : ∀ c ∈ cs, c.isDigit = true ∨ IsSeparator c)
    (hsome : ∃ c ∈ cs, c.isDigit = true) {d : Char} (hd : d.isDigit = true)
    (hfits : digitSum (cs ++ [d]) < UInt32.size) :
    ∃ check < 10, checkDigit? cs = some check ∧
      isLuhn? (cs ++ [d]) = some (decide (d = digitChar check)) := by
  have hstrip : stripSeparators (cs ++ [d]) = cs.filter Char.isDigit ++ [d] := by
    rw [stripSeparators_append, stripSeparators_eq_filter hcs,
      stripSeparators_of_digits (List.forall_mem_singleton.2 hd)]
  have hpos : 0 < (cs.filter Char.isDigit).length := by
    obtain ⟨c, hc, hdigit⟩ := hsome
    exact List.length_pos_of_mem (List.mem_filter.2 ⟨hc, hdigit⟩)
  have hnumber : IsNumber (cs ++ [d]) := by
    rw [IsNumber, hstrip]
    simp only [List.length_append, List.length_singleton, List.forall_mem_append,
      List.forall_mem_singleton]
    exact ⟨by omega, fun c hc => (List.mem_filter.1 hc).2, hd⟩
  have hsum : digitSum (cs ++ [d]) =
      digitValue d + weightedSum true ((cs.filter Char.isDigit).reverse.map digitValue) := by
    rw [digitSum, hstrip]
    simp [luhnSum, weightedSum, weigh]
  have hlt := digitValue_lt hd
  obtain ⟨sum, hchecked, hvalue⟩ := Counter.exists_add? 0
    (weightedSum true ((cs.filter Char.isDigit).reverse.map digitValue))
    (by rw [UInt32.toNat_zero]; omega)
  have hcheck : ((10 - sum % 10) % 10).toNat = (10 - sum.toNat % 10) % 10 := by
    have hmod : (sum % 10).toNat = sum.toNat % 10 := UInt32.toNat_mod sum 10
    have hle : sum % 10 ≤ 10 := by
      rw [UInt32.le_iff_toNat_le, hmod]
      exact Nat.le_of_lt (Nat.mod_lt _ (by decide))
    rw [UInt32.toNat_mod, UInt32.toNat_sub_of_le _ _ hle, hmod]
    rfl
  have hten : (10 - sum.toNat % 10) % 10 < 10 := Nat.mod_lt _ (by decide)
  refine ⟨(10 - sum.toNat % 10) % 10, hten, ?_, ?_⟩
  · rw [checkDigit?, addDigits?_eq, hchecked, Option.map_some, hcheck]
  · rw [isLuhn?_of_number hnumber hfits, Option.some.injEq]
    apply decide_eq_decide.2
    rw [eq_digitChar_iff hd hten, hsum]
    rw [UInt32.toNat_zero] at hvalue
    omega

/-- No other digit can stand in the place of one digit of a right number. -/
theorem isLuhn?_changed {front back : List Char} {d e : Char} (hd : d.isDigit = true)
    (he : e.isDigit = true) (hluhn : isLuhn? (front ++ d :: back) = some true)
    (hfits : digitSum (front ++ e :: back) < UInt32.size) :
    isLuhn? (front ++ e :: back) = some (decide (e = d)) := by
  obtain ⟨phase, hmiddle⟩ := isLuhn?_middle front back 1
  have hjudged := hmiddle [d] [e] rfl rfl (List.forall_mem_singleton.2 hd)
    (List.forall_mem_singleton.2 he) hluhn hfits
  show isLuhn? (front ++ ([e] ++ back)) = _
  rw [hjudged, Option.some.injEq]
  apply decide_eq_decide.2
  show weigh phase (digitValue e) % 10 = weigh phase (digitValue d) % 10 ↔ e = d
  constructor
  · intro h
    exact digitValue_inj he hd (weigh_inj phase (digitValue_lt he) (digitValue_lt hd) h)
  · rintro rfl
    rfl

/-- Two neighbours in a right number can change places only if they are equal, or 0 and 9. -/
theorem isLuhn?_swapped {front back : List Char} {d e : Char} (hd : d.isDigit = true)
    (he : e.isDigit = true) (hluhn : isLuhn? (front ++ d :: e :: back) = some true)
    (hfits : digitSum (front ++ e :: d :: back) < UInt32.size) :
    isLuhn? (front ++ e :: d :: back) =
      some (decide (e = d ∨ d = '0' ∧ e = '9' ∨ d = '9' ∧ e = '0')) := by
  obtain ⟨phase, hmiddle⟩ := isLuhn?_middle front back 2
  have hjudged :=
    hmiddle [d, e] [e, d] rfl rfl (by simp [hd, he]) (by simp [hd, he]) hluhn hfits
  have hvalue : e = d ↔ digitValue e = digitValue d :=
    ⟨fun h => h ▸ rfl, digitValue_inj he hd⟩
  have hzero {c : Char} (hc : c.isDigit = true) : c = '0' ↔ digitValue c = 0 :=
    eq_digitChar_iff (n := 0) hc (by decide)
  have hnine {c : Char} (hc : c.isDigit = true) : c = '9' ↔ digitValue c = 9 :=
    eq_digitChar_iff (n := 9) hc (by decide)
  show isLuhn? (front ++ ([e, d] ++ back)) = _
  rw [hjudged, Option.some.injEq]
  apply decide_eq_decide.2
  rw [hvalue, hzero hd, hnine he, hnine hd, hzero he]
  exact weigh_swap_iff phase (digitValue_lt hd) (digitValue_lt he)

/-- Separators do not count. -/
theorem Spaced.isLuhn?_eq {cs spaced : List Char} (h : Spaced cs spaced) :
    isLuhn? spaced = isLuhn? cs := by
  unfold isLuhn?
  rw [h.stripSeparators_eq]

/-- What the check digit does for a text.  A number is judged if its digit sum fits 32 bits. -/
structure CheckDigitGuards (cs : List Char) : Prop where
  /-- Of all digits only the check digit makes a number of digits and separators right. -/
  completed : (∀ c ∈ cs, c.isDigit = true ∨ IsSeparator c) → (∃ c ∈ cs, c.isDigit = true) →
    ∀ d : Char, d.isDigit = true → digitSum (cs ++ [d]) < UInt32.size →
      ∃ check < 10, checkDigit? cs = some check ∧
        isLuhn? (cs ++ [d]) = some (decide (d = digitChar check))
  /-- A right number is not right with another digit in the place of one of its own. -/
  changed : isLuhn? cs = some true → ∀ front d back, cs = front ++ d :: back → d.isDigit = true →
    ∀ e : Char, e.isDigit = true → digitSum (front ++ e :: back) < UInt32.size →
      isLuhn? (front ++ e :: back) = some (decide (e = d))
  /-- A right number is not right with two neighbours swapped, unless they are equal or 0 and 9. -/
  swapped : isLuhn? cs = some true → ∀ front d e back, cs = front ++ d :: e :: back →
    d.isDigit = true → e.isDigit = true → digitSum (front ++ e :: d :: back) < UInt32.size →
      isLuhn? (front ++ e :: d :: back) =
        some (decide (e = d ∨ d = '0' ∧ e = '9' ∨ d = '9' ∧ e = '0'))
  /-- Separators may be put in or left out anywhere. -/
  spaced : ∀ spaced, Spaced cs spaced → isLuhn? spaced = isLuhn? cs
  /-- Only numbers with a larger digit sum are not judged. -/
  unjudged : isLuhn? cs = none ↔ IsNumber cs ∧ UInt32.size ≤ digitSum cs

/-- The check digit completes every number in one way, finds every wrong digit and every swap of
neighbours but that of 0 and 9, and does not see separators. -/
theorem checkDigit_guards (cs : List Char) : CheckDigitGuards cs where
  completed := fun hcs hsome d hd hfits => isLuhn?_append_digit hcs hsome hd hfits
  changed := by
    rintro hluhn front d back rfl hd e he hfits
    exact isLuhn?_changed hd he hluhn hfits
  swapped := by
    rintro hluhn front d e back rfl hd he hfits
    exact isLuhn?_swapped hd he hluhn hfits
  spaced := fun spaced h => h.isLuhn?_eq
  unjudged := isLuhn?_eq_none_iff

/-- A number that is completed, mistyped in two ways and written with separators. -/
theorem checkDigit_guards_sample :
    isLuhn? ("4012 8888-8888 188".toList ++ ['1']) = some true ∧
      isLuhn? ("40128888888".toList ++ '9' :: "1881".toList) = some false ∧
      isLuhn? ("4".toList ++ '1' :: '0' :: "2888888881881".toList) = some false ∧
      isLuhn? "4012-8888 8888 1881".toList = some true := by
  have spaced : "4012 8888-8888 188".toList.all
      (fun c => decide (c.isDigit = true ∨ IsSeparator c)) = true := by decide
  obtain ⟨check, -, hcheck, completed⟩ :=
    (checkDigit_guards "4012 8888-8888 188".toList).completed
      (fun c hc => of_decide_eq_true (List.all_eq_true.1 spaced c hc)) ⟨'4', by decide, rfl⟩ '1' rfl
      (by decide)
  have hone : checkDigit? "4012 8888-8888 188".toList = some 1 := by decide
  have right : isLuhn? "4012888888881881".toList = some true := by decide
  have hguarded := checkDigit_guards "4012888888881881".toList
  have changed := hguarded.changed right "40128888888".toList '8' "1881".toList rfl rfl '9' rfl
    (by decide)
  have swapped := hguarded.swapped right "4".toList '0' '1' "2888888881881".toList rfl rfl rfl
    (by decide)
  refine ⟨?_, changed, swapped, ?_⟩
  · rw [hone, Option.some.injEq] at hcheck
    rw [completed, ← hcheck]
    rfl
  · rw [hguarded.spaced _ (spaced_stripSeparators "4012-8888 8888 1881".toList), right]

end CardGate.Card
