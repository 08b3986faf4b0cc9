import CardGate.Icap.Chunked
import CardGate.Proofs.Icap.Lines
import CardGate.Proofs.Text.Numeral
import CardGate.Proofs.Text.Words
import CardGate.Text.Utf8.Lemmas
import Mathlib.Data.List.Induction
import Mathlib.Data.List.TakeWhile

/-!
# The line before a chunk

The size of a chunk stands in a line of its own, and what is read there is more than hexadecimal
digits: blanks around them, a plus sign before them, and an extension behind a semicolon.
`SizeLine` has the parts of such a line, and `SizeLine.Gives` says which size they give.

`SizeLine.size?_of_gives` and `SizeLine.exists_gives` say that exactly these lines are read as
sizes.  A line is decoded before it is looked at, so both go from bytes to text and back; only an
extension may hold bytes that are no text.
-/

namespace CardGate

namespace Source

/-! ## Lines and their ends -/

theorem stripLine_append_singleton (line : List UInt8) (b : UInt8) :
    stripLine (line ++ [b]) = if b = carriageReturn then stripLine line else line ++ [b] := by
  rw [stripLine, List.reverse_append, List.reverse_singleton, List.singleton_append,
    List.dropWhile_cons]
  by_cases hb : b = carriageReturn
  · rw [if_pos (beq_iff_eq.2 hb), if_pos hb, stripLine]
  · rw [if_neg (mt beq_iff_eq.1 hb), if_neg hb, List.reverse_cons, List.reverse_reverse]

/-- The carriage returns at the end of a line are all that is stripped from it. -/
theorem exists_of_stripLine (line : List UInt8) :
    ∃ n, line = stripLine line ++ List.replicate n carriageReturn := by
  induction line using List.reverseRecOn with
  | nil => exact ⟨0, rfl⟩
  | append_singleton line b ih =>
    rw [stripLine_append_singleton]
    split
    · next hb =>
      obtain ⟨n, hline⟩ := ih
      refine ⟨n + 1, ?_⟩
      rw [hb, List.replicate_succ', ← List.append_assoc, ← hline]
    · exact ⟨0, (List.append_nil _).symm⟩

/-- Up to a byte that is no carriage return nothing is stripped. -/
theorem stripLine_append {b : UInt8} (hb : b ≠ carriageReturn) (front back : List UInt8) :
    stripLine (front ++ b :: back) = front ++ b :: stripLine back := by
  induction back using List.reverseRecOn with
  | nil =>
    rw [stripLine_append_singleton, if_neg hb]
    rfl
  | append_singleton back c ih =>
    rw [← List.cons_append, ← List.append_assoc, stripLine_append_singleton,
      stripLine_append_singleton, ih]
    split
    · rfl
    · rw [List.append_assoc, List.cons_append]

/-- Up to a character that is no carriage return nothing is stripped. -/
theorem stripLine_encode_append {c : Char} (hc : c ≠ '\r') (cs : List Char)
    (back : List UInt8) :
    stripLine (Utf8.encode (cs ++ [c]) ++ back) = Utf8.encode (cs ++ [c]) ++ stripLine back := by
  obtain ⟨bytes, b, hbytes⟩ :=
    (List.eq_nil_or_concat' (String.utf8EncodeChar c)).resolve_left String.utf8EncodeChar_ne_nil
  have hb : b ≠ carriageReturn := by
    intro hb
    have hmem : b ∈ String.utf8EncodeChar c := hbytes ▸ List.mem_append_right _ List.mem_cons_self
    subst hb
    exact hc (Utf8.eq_ofNat_of_mem_utf8EncodeChar (by decide) hmem)
  have hencode : Utf8.encode (cs ++ [c]) = (Utf8.encode cs ++ bytes) ++ [b] := by
    rw [Utf8.encode_append, List.append_assoc, ← hbytes, Utf8.encode, Utf8.encode,
      List.flatMap_singleton]
  rw [hencode, List.append_assoc, List.singleton_append, stripLine_append hb, List.append_assoc,
    List.append_assoc, List.append_assoc, List.singleton_append]

/-- What is stripped from the bytes of a text is the end of the text. -/
theorem exists_stripLine_encode (cs : List Char) :
    ∃ front, stripLine (Utf8.encode cs) = Utf8.encode front ∧ front <+: cs := by
  induction cs using List.reverseRecOn with
  | nil => exact ⟨[], rfl, List.prefix_rfl⟩
  | append_singleton cs c ih =>
    by_cases hc : c = '\r'
    · obtain ⟨front, hfront, hpart⟩ := ih
      refine ⟨front, ?_, hpart.trans (List.prefix_append cs [c])⟩
      rw [hc, Utf8.encode_append]
      exact (stripLine_append_singleton _ _).trans hfront
    · have hstrip := stripLine_encode_append hc cs []
      rw [List.append_nil] at hstrip
      exact ⟨cs ++ [c], hstrip.trans (List.append_nil _), List.prefix_rfl⟩

/-- A line is empty if it holds carriage returns only. -/
theorem lineText_eq_empty_iff {line : List UInt8} :
    lineText line = "" ↔ ∀ b ∈ line, b = carriageReturn := by
  rw [lineText, Utf8.lossy_eq_empty_iff]
  constructor
  · intro h
    obtain ⟨n, hline⟩ := exists_of_stripLine line
    rw [h, List.nil_append] at hline
    rw [hline]
    exact fun b hb => List.eq_of_mem_replicate hb
  · intro h
    rw [stripLine, List.reverse_eq_nil_iff, List.dropWhile_eq_nil_iff]
    exact fun b hb => beq_iff_eq.2 (h b (List.mem_reverse.1 hb))

theorem lineText_ne_empty_iff {line : List UInt8} :
    lineText line ≠ "" ↔ ∃ b ∈ line, b ≠ carriageReturn := by
  rw [ne_eq, lineText_eq_empty_iff, not_forall]
  exact exists_congr fun b => Classical.not_imp

end Source

/-! ## The line before a chunk -/

/-- The parts of a line that says the size of a chunk. -/
structure SizeLine where
  before : List Char
  plus : List Char
  digits : List Char
  after : List Char
  extension : List UInt8
  returns : Nat

namespace SizeLine

/-- The byte of a semicolon. -/
def semicolon : UInt8 := 59

/-- The bytes of the line, without its line feed. -/
def bytes (line : SizeLine) : List UInt8 :=
  Utf8.encode (line.before ++ (line.plus ++ (line.digits ++ line.after))) ++
    (line.extension ++ List.replicate line.returns Source.carriageReturn)

/-- Whether the line says a size: in hexadecimal digits, perhaps behind a plus sign, with blanks
around them and anything behind a semicolon. -/
structure Gives (line : SizeLine) (n : Nat) : Prop where
  blankBefore : ∀ c ∈ line.before, Text.isBlank c = true
  signed : line.plus = [] ∨ line.plus = ['+']
  numeral : Numeral.IsNumeral 16 Numeral.hexDigit? line.digits n
  bounded : n < Numeral.sizeBound
  blankAfter : ∀ c ∈ line.after, Text.isBlank c = true
  extended : line.extension = [] ∨ ∃ more, line.extension = semicolon :: more

/-- A character that can stand in the number: trimming keeps it, no extension begins with it, and
it does not stand for bytes that are no text. -/
structure IsInner (c : Char) : Prop where
  solid : Text.isBlank c = false
  noSemicolon : c ≠ ';'
  decoded : c ≠ '\uFFFD'

theorem isInner_of_hexDigit? {c : Char} {v : Nat} (h : Numeral.hexDigit? c = some v) :
    IsInner c := by
  have hcheck : ∀ n < 128, (Numeral.hexDigit? (Char.ofNat n)).isSome = true →
      Text.isBlank (Char.ofNat n) = false ∧ Char.ofNat n ≠ ';' ∧ Char.ofNat n ≠ '\uFFFD' := by
    decide
  have hsome : (Numeral.hexDigit? (Char.ofNat c.toNat)).isSome = true := by
    rw [Char.ofNat_toNat, h]
    rfl
  obtain ⟨solid, noSemicolon, decoded⟩ :=
    Char.ofNat_toNat c ▸ hcheck c.toNat (Numeral.toNat_lt_of_hexDigit? h) hsome
  exact ⟨solid, noSemicolon, decoded⟩

theorem isInner_of_mem {plus digits : List Char} {n : Nat} (signed : plus = [] ∨ plus = ['+'])
    (numeral : Numeral.IsNumeral 16 Numeral.hexDigit? digits n) {c : Char}
    (hc : c ∈ plus ++ digits) : IsInner c := by
  rcases List.mem_append.1 hc with hc | hc
  · obtain rfl | rfl := signed
    · exact absurd hc List.not_mem_nil
    · rw [List.mem_singleton.1 hc]
      exact ⟨by decide, by decide, by decide⟩
  · obtain ⟨v, hv⟩ := numeral.exists_of_mem hc
    exact isInner_of_hexDigit? hv

theorem not_mark_of_isBlank {c : Char} (h : Text.isBlank c = true) : c ≠ ';' ∧ c ≠ '\uFFFD' := by
  constructor
  · intro hc
    rw [hc] at h
    exact absurd h (by decide)
  · intro hc
    rw [hc] at h
    exact absurd h (by decide)

/-- What stands behind the digits of a size is read as blanks, and then as nothing or as a semicolon
and more. -/
theorem exists_behind {after : List Char} {extension : List UInt8}
    (blank : ∀ c ∈ after, Text.isBlank c = true)
    (extended : extension = [] ∨ ∃ more, extension = semicolon :: more) (returns : Nat) :
    ∃ blanks more, (∀ c ∈ blanks, Text.isBlank c = true) ∧
      (more = [] ∨ ∃ cs, more = ';' :: cs) ∧
      (Source.lineText (Utf8.encode after ++
        (extension ++ List.replicate returns Source.carriageReturn))).toList = blanks ++ more := by
  obtain rfl | ⟨bytes, rfl⟩ := extended
  · have hreturns : Utf8.encode (List.replicate returns '\r') =
        List.replicate returns Source.carriageReturn := by
      induction returns with
      | zero => rfl
      | succ n ih =>
        rw [List.replicate_succ, List.replicate_succ, ← ih]
        rfl
    obtain ⟨front, hfront, hpart⟩ :=
      Source.exists_stripLine_encode (after ++ List.replicate returns '\r')
    refine ⟨front, [], fun c hc => ?_, Or.inl rfl, ?_⟩
    · rcases List.mem_append.1 (hpart.subset hc) with hc | hc
      · exact blank c hc
      · rw [List.eq_of_mem_replicate hc]
        rfl
    · have hlossy := Utf8.lossy_encode_append front []
      rw [List.append_nil] at hlossy
      rw [List.nil_append, ← hreturns, ← Utf8.encode_append, Source.lineText, hfront, hlossy]
      rfl
  · let rest := Source.stripLine (bytes ++ List.replicate returns Source.carriageReturn)
    have hsemicolon : Utf8.encode after ++ semicolon :: rest =
        Utf8.encode (after ++ [';']) ++ rest := by
      rw [Utf8.encode_append, List.append_assoc]
      rfl
    refine ⟨after, ';' :: (Utf8.lossy rest).toList, blank, Or.inr ⟨_, rfl⟩, ?_⟩
    rw [List.cons_append, Source.lineText, Source.stripLine_append (by decide), hsemicolon,
      Utf8.lossy_encode_append, List.append_assoc, List.singleton_append]

/-- The line is read as a size with blanks around it, and perhaps more behind a semicolon. -/
theorem exists_of_gives {line : SizeLine} {n : Nat} (h : line.Gives n) :
    ∃ blanks more, (∀ c ∈ blanks, Text.isBlank c = true) ∧ (more = [] ∨ ∃ cs, more = ';' :: cs) ∧
      (Source.lineText line.bytes).toList =
        (line.before ++ (line.plus ++ line.digits)) ++ (blanks ++ more) := by
  obtain ⟨blanks, more, hblanks, hmore, htext⟩ :=
    exists_behind h.blankAfter h.extended line.returns
  obtain ⟨digits, d, hdigits⟩ := (List.eq_nil_or_concat' line.digits).resolve_left h.numeral.1
  have hreturn : d ≠ '\r' := by
    intro hd
    obtain ⟨v, hv⟩ := h.numeral.exists_of_mem (c := d) (hdigits ▸ by simp)
    rw [hd] at hv
    cases hv
  have hbytes : line.bytes = Utf8.encode ((line.before ++ (line.plus ++ digits)) ++ [d]) ++
      (Utf8.encode line.after ++
        (line.extension ++ List.replicate line.returns Source.carriageReturn)) := by
    rw [bytes, hdigits]
    simp only [Utf8.encode_append, List.append_assoc]
  refine ⟨blanks, more, hblanks, hmore, ?_⟩
  rw [hbytes, Source.lineText, Source.stripLine_encode_append hreturn, Utf8.lossy_encode_append,
    ← Source.lineText, htext, hdigits]
  simp only [List.append_assoc]

/-- A line that says a size is read as that size. -/
theorem size?_of_gives {line : SizeLine} {n : Nat} (h : line.Gives n) :
    Chunked.size? (Source.lineText line.bytes) = some n := by
  obtain ⟨blanks, more, hblanks, hmore, htext⟩ := exists_of_gives h
  have hinner (c : Char) (hc : c ∈ line.plus ++ line.digits) : IsInner c :=
    isInner_of_mem h.signed h.numeral hc
  have hfield : (Source.lineText line.bytes).toList.takeWhile (· ≠ ';') =
      line.before ++ ((line.plus ++ line.digits) ++ blanks) := by
    have hstop : more.takeWhile (· ≠ ';') = [] := by
      obtain rfl | ⟨cs, rfl⟩ := hmore
      · rfl
      · rfl
    rw [htext, ← List.append_assoc, List.takeWhile_append_of_pos, hstop, List.append_nil,
      List.append_assoc]
    intro c hc
    rw [decide_eq_true_eq]
    rcases List.mem_append.1 hc with hc | hc
    · rcases List.mem_append.1 hc with hc | hc
      · exact (not_mark_of_isBlank (h.blankBefore c hc)).1
      · exact (hinner c hc).noSemicolon
    · exact (not_mark_of_isBlank (hblanks c hc)).1
  have htrim : Text.trim (line.before ++ ((line.plus ++ line.digits) ++ blanks)) =
      line.plus ++ line.digits := by
    refine Text.trim_blanks ?_ h.blankBefore hblanks
      (fun c hc => (hinner c (List.mem_of_head? hc)).solid)
      (fun c hc => (hinner c (List.mem_of_getLast? hc)).solid)
    exact List.append_ne_nil_of_right_ne_nil _ h.numeral.1
  rw [Chunked.size?, hfield, htrim, Numeral.hexBelow?_eq_some_iff]
  exact ⟨h.bounded, line.plus, line.digits, rfl, h.signed, h.numeral⟩

/-- A line that is read as a size says it. -/
theorem exists_gives {line : List UInt8} {n : Nat}
    (h : Chunked.size? (Source.lineText line) = some n) :
    ∃ parts : SizeLine, parts.bytes = line ∧ parts.Gives n := by
  obtain ⟨before, after, hfield, hbefore, hafter⟩ :=
    Text.exists_of_trim ((Source.lineText line).toList.takeWhile (· ≠ ';'))
  obtain ⟨hbounded, plus, digits, hcore, hsigned, hnumeral⟩ := Numeral.hexBelow?_eq_some_iff.1 h
  rw [hcore] at hfield
  have htext : (Source.lineText line).toList = (before ++ (plus ++ (digits ++ after))) ++
      (Source.lineText line).toList.dropWhile (· ≠ ';') := by
    rw [← List.append_assoc plus, ← hfield, List.takeWhile_append_dropWhile]
  have hunbroken : '\uFFFD' ∉ before ++ (plus ++ (digits ++ after)) := by
    rw [← List.append_assoc plus, List.mem_append, List.mem_append]
    intro hmem
    rcases hmem with hmem | hmem | hmem
    · exact (not_mark_of_isBlank (hbefore _ hmem)).2 rfl
    · exact (isInner_of_mem hsigned hnumeral hmem).decoded rfl
    · exact (not_mark_of_isBlank (hafter _ hmem)).2 rfl
  obtain ⟨rest, hrest, hmore⟩ := Utf8.exists_of_lossy htext hunbroken
  obtain ⟨returns, hreturns⟩ := Source.exists_of_stripLine line
  refine ⟨⟨before, plus, digits, after, rest, returns⟩, ?_, hbefore, hsigned, hnumeral, hbounded,
    hafter, ?_⟩
  · rw [bytes]
    dsimp only
    rw [← List.append_assoc, ← hrest, ← hreturns]
  · cases hdrop : (Source.lineText line).toList.dropWhile (· ≠ ';') with
    | nil =>
      rw [hdrop] at hmore
      exact Or.inl (Utf8.lossy_eq_empty_iff.1 (String.toList_eq_nil_iff.1 hmore))
    | cons c cs =>
      have hc : c = ';' := by
        have hhead := List.head?_dropWhile_not (fun c => decide (c ≠ ';'))
          (Source.lineText line).toList
        rw [hdrop, List.head?_cons] at hhead
        exact Decidable.not_not.1 (of_decide_eq_false hhead)
      rw [hdrop, hc] at hmore
      obtain ⟨others, rfl, -⟩ := Utf8.exists_of_lossy
        (show (Utf8.lossy rest).toList = [';'] ++ cs from hmore) (by decide)
      exact Or.inr ⟨others, rfl⟩

end SizeLine

end CardGate
