import CardGate.Proofs.Json.Grammar
import Mathlib.Data.List.Forall2

/-!
# What is read of a text

`Collected` says what a reader makes of a document as it is written: an object keeps one member for
each name, with the value that is written last.  The main statement is `collected_of_parse`: if a
text is in the grammar and holds a document, then that document is what is made of the one that is
written.

The reader may also refuse a text of the grammar, for it is nested too deep or has an object that
begins with the reserved name.  So the induction over the grammar (`readAs_of_spells`) is about
readers that do not refuse their part: they have read what is written, and stop where the part ends.
-/

namespace CardGate.Json

/-! ## Strings -/

theorem escape_of_short {letter c : Char} (h : (letter, c) ∈ shortEscapes) (rest : List Char) :
    escape (letter :: rest) = .ok (c, 1) := by
  simp only [shortEscapes, List.mem_cons, Prod.mk.injEq, List.not_mem_nil, or_false] at h
  rcases h with ⟨rfl, rfl⟩ | ⟨rfl, rfl⟩ | ⟨rfl, rfl⟩ | ⟨rfl, rfl⟩ | ⟨rfl, rfl⟩ | ⟨rfl, rfl⟩ |
    ⟨rfl, rfl⟩ | ⟨rfl, rfl⟩ <;> rfl

theorem hexQuad_of_isQuad {digits : List Char} {n : Nat} (h : IsQuad digits n)
    (rest : List Char) : hexQuad (digits ++ rest) = .ok (n, rest) := by
  obtain ⟨hlength, hvalue⟩ := h
  match digits, hlength with
  | [a, b, c, d], _ =>
    simp only [List.cons_append, List.nil_append, hexQuad, hvalue]

/-- A string is read as what its text stands for, up to the closing quote. -/
theorem stringFrom_of_spellsString {cs s : List Char} (h : SpellsString cs s)
    (rest : List Char) : stringFrom 0 (cs ++ '"' :: rest) = .ok (s, rest) := by
  induction h with
  | nil => rfl
  | plain quote backslash printable more ih =>
    rw [List.cons_append, stringFrom]
    simp only [if_neg quote, if_neg backslash, if_neg printable, ih]
    rfl
  | @short letter c cs s known more ih =>
    have hescape : escape ([letter] ++ (cs ++ '"' :: rest)) = .ok (c, [letter].length) :=
      escape_of_short known _
    have hread := stringFrom_backslash _ hescape
    rw [ih] at hread
    exact hread
  | @code digits cs s n value whole more ih =>
    have hescape : escape (('u' :: digits) ++ (cs ++ '"' :: rest)) =
        .ok (Char.ofNat n, ('u' :: digits).length) := by
      rw [List.cons_append, escape, hexQuad_of_isQuad value, List.length_cons, value.1]
      simp only
      rw [if_neg (by omega), if_neg (by omega)]
    have hread := stringFrom_backslash _ hescape
    rw [ih] at hread
    rw [List.cons_append, List.cons_append, List.append_assoc]
    exact hread
  | @pair first second cs s high low value upper value' lower more ih =>
    have hescape : escape (('u' :: (first ++ '\\' :: 'u' :: second)) ++ (cs ++ '"' :: rest)) =
        .ok (Char.ofNat ((high - 0xD800) * 0x400 + (low - 0xDC00) + 0x10000),
          ('u' :: (first ++ '\\' :: 'u' :: second)).length) := by
      have hlow : lowHalf high ('\\' :: 'u' :: (second ++ (cs ++ '"' :: rest))) =
          .ok (Char.ofNat ((high - 0xD800) * 0x400 + (low - 0xDC00) + 0x10000)) := by
        rw [lowHalf, hexQuad_of_isQuad value']
        simp only [if_pos lower]
      rw [List.cons_append, List.append_assoc, List.cons_append, List.cons_append, escape,
        hexQuad_of_isQuad value]
      simp only
      rw [if_neg (by omega), if_pos upper, hlow]
      simp [Except.map, value.1, value'.1]
    have hread := stringFrom_backslash _ hescape
    rw [ih] at hread
    simp only [List.cons_append, List.append_assoc] at hread ⊢
    exact hread

theorem string_of_spellsString {cs : List Char} {s : String} (h : SpellsString cs s.toList)
    (rest : List Char) : string (cs ++ '"' :: rest) = .ok (s, rest) := by
  rw [string, stringFrom_of_spellsString h]
  simp [Except.map]

/-! ## Where a part ends -/

/-- A number ends before white space and whatever comes after that, if this does not belong to
it. -/
theorem endsNumber_of_skipSpace {cs : List Char}
    (h : ∀ c rest, skipSpace cs = c :: rest → continuesNumber c = false) : EndsNumber cs := by
  rintro c rest rfl
  cases hspace : isSpace c with
  | true =>
    simp only [isSpace, Bool.or_eq_true, beq_iff_eq] at hspace
    rcases hspace with ((rfl | rfl) | rfl) | rfl <;> rfl
  | false => exact h c rest (skipSpace_cons hspace rest)

theorem Spells.endsNumber_moreItems {items : List Json} {cs rest : List Char}
    (h : Spells (.moreItems items) cs rest) : EndsNumber cs := by
  refine endsNumber_of_skipSpace fun c more heq => ?_
  cases h with
  | lastItem text | nextItem text =>
    rw [text] at heq
    cases heq
    rfl

theorem Spells.endsNumber_moreMembers {members : List (String × Json)} {cs rest : List Char}
    (h : Spells (.moreMembers members) cs rest) : EndsNumber cs := by
  refine endsNumber_of_skipSpace fun c more heq => ?_
  cases h with
  | lastMember text | nextMember text =>
    rw [text] at heq
    cases heq
    rfl

/-! ## What a reader makes of a part -/

/-- Members with the same name and related values. -/
inductive SameName (related : Json → Json → Prop) : String × Json → String × Json → Prop where
  | mk (name : String) {written read : Json} (values : related written read) :
      SameName related (name, written) (name, read)

/-- What a reader makes of a document as it is written.  Numbers may be kept in another form, and
an object keeps one member for each name. -/
inductive Collected : Json → Json → Prop where
  | null : Collected null null
  | bool (b : Bool) : Collected (bool b) (bool b)
  | num (written kept : String) : Collected (num written) (num kept)
  | str (s : String) : Collected (str s) (str s)
  | arr {written read : List Json} (items : List.Forall₂ Collected written read) :
      Collected (arr written) (arr read)
  | obj {written read : List (String × Json)}
      (members : List.Forall₂ (SameName Collected) written read) :
      Collected (obj written) (obj (collect read))
  | held (value : Json) (kept : String) : Collected (obj [(numeralName, value)]) (num kept)

/-- Whether the reader of a part stops where it ends and has read what is written, unless it
refuses the part. -/
def Part.ReadAs : Part → List Char → List Char → Prop
  | .value d, cs, rest => EndsNumber rest → ∀ fuel depth read after,
      Json.value fuel depth cs = .ok (read, after) → after = rest ∧ Collected d read
  | .items written, cs, rest => ∀ fuel depth read after,
      firstItem fuel depth cs = .ok (read, after) →
        after = rest ∧ List.Forall₂ Collected written read
  | .moreItems written, cs, rest => ∀ fuel depth read after,
      nextItem fuel depth cs = .ok (read, after) →
        after = rest ∧ List.Forall₂ Collected written read
  | .members written, cs, rest => ∀ fuel depth read after,
      firstMember fuel depth cs = .ok (read, after) →
        after = rest ∧ List.Forall₂ (SameName Collected) written read
  | .entry written, cs, rest => ∀ fuel depth tail read after, skipSpace cs = '"' :: tail →
      member fuel depth tail = .ok (read, after) →
        after = rest ∧ List.Forall₂ (SameName Collected) written read
  | .moreMembers written, cs, rest => ∀ fuel depth read after,
      nextMember fuel depth cs = .ok (read, after) →
        after = rest ∧ List.Forall₂ (SameName Collected) written read

theorem readAs_literal {d : Json} {letters cs rest : List Char} (known : (letters, d) ∈ literals)
    (text : skipSpace cs = letters ++ rest) : (Part.value d).ReadAs cs rest := by
  intro _ fuel depth read after h
  cases fuel with
  | zero => cases h
  | succ fuel =>
    rw [value, text] at h
    simp only [literals, List.mem_cons, Prod.mk.injEq, List.not_mem_nil, or_false] at known
    rcases known with ⟨rfl, rfl⟩ | ⟨rfl, rfl⟩ | ⟨rfl, rfl⟩
    · cases h
      exact ⟨rfl, .null⟩
    · cases h
      exact ⟨rfl, .bool true⟩
    · cases h
      exact ⟨rfl, .bool false⟩

theorem readAs_num {cs digits rest : List Char} (numeral : IsNumeral digits)
    (text : skipSpace cs = digits ++ rest) :
    (Part.value (.num (String.ofList digits))).ReadAs cs rest := by
  intro hends fuel depth read after h
  cases fuel with
  | zero => cases h
  | succ fuel =>
    obtain ⟨c, more, rfl, hc⟩ := numeral.head
    obtain ⟨kept, hkept⟩ := exists_number numeral hends
    rw [List.cons_append] at text hkept
    rw [value, text] at h
    simp only at h
    split at h
    iterate 6 simp at hc
    rw [if_pos hc, hkept] at h
    cases h
    exact ⟨rfl, .num _ _⟩

theorem readAs_str {cs quoted rest : List Char} {s : String}
    (spelled : SpellsString quoted s.toList) (text : skipSpace cs = '"' :: (quoted ++ '"' :: rest)) :
    (Part.value (.str s)).ReadAs cs rest := by
  intro _ fuel depth read after h
  cases fuel with
  | zero => cases h
  | succ fuel =>
    rw [value, text] at h
    simp only [string_of_spellsString spelled] at h
    cases h
    exact ⟨rfl, .str s⟩

theorem colon_of_skipSpace {cs rest : List Char} (h : skipSpace cs = ':' :: rest) :
    colon cs = .ok rest := by
  simp only [colon, h]

/-- A value does not begin with a closing bracket, and begins with a quote only if it is a string.
-/
theorem Spells.head {d : Json} {cs rest : List Char} (h : Spells (.value d) cs rest) :
    ∃ c tail, skipSpace cs = c :: tail ∧ c ≠ ']' ∧
      (c = '"' → ∃ quoted s, SpellsString quoted s ∧ tail = quoted ++ '"' :: rest) := by
  cases h with
  | literal known text =>
    simp only [literals, List.mem_cons, Prod.mk.injEq, List.not_mem_nil, or_false] at known
    rcases known with ⟨rfl, rfl⟩ | ⟨rfl, rfl⟩ | ⟨rfl, rfl⟩ <;>
    exact ⟨_, _, text, by decide, fun h => absurd h (by decide)⟩
  | num numeral text =>
    obtain ⟨c, more, rfl, hc⟩ := numeral.head
    refine ⟨c, _, text, ?_, ?_⟩ <;>
    · rintro rfl
      simp at hc
  | str spelled text => exact ⟨'"', _, text, by decide, fun _ => ⟨_, _, spelled, rfl⟩⟩
  | arr text | obj text => exact ⟨_, _, text, by decide, fun h => absurd h (by decide)⟩

/-- Members that pass for a number end where they are spelled to end. -/
theorem Spells.heldNumber {members : List (String × Json)} {cs rest tail after : List Char}
    {read : Json} (h : Spells (.members members) cs rest)
    (hname : afterNumeralName? cs = some tail) (hheld : heldNumber tail = .ok (read, after)) :
    after = rest ∧ Collected (.obj members) read := by
  cases h with
  | noMembers text =>
    rw [afterNumeralName?, text] at hname
    cases hname
  | members all =>
    cases all with
    | entry spelled text separated first others =>
      rw [afterNumeralName?, text] at hname
      simp only [string_of_spellsString spelled] at hname
      split at hname
      · next reserved =>
        cases hname
        subst reserved
        rw [Json.heldNumber, colon_of_skipSpace separated] at hheld
        simp only at hheld
        split at hheld
        · next quote =>
          obtain ⟨c, inside, hhead, -, hstring⟩ := first.head
          rw [quote] at hhead
          cases hhead
          obtain ⟨quoted, s, hs, rfl⟩ := hstring rfl
          rw [stringFrom_of_spellsString hs] at hheld
          simp only at hheld
          split at hheld
          · cases hheld
          · obtain ⟨last, hclosing, heq⟩ := map_eq_ok.1 hheld
            cases heq
            cases others with
            | lastMember text =>
              rw [closing, text] at hclosing
              cases hclosing
              exact ⟨rfl, .held _ _⟩
            | nextMember text =>
              rw [closing, text] at hclosing
              cases hclosing
        · cases hheld
      · cases hname

theorem readAs_arr {items : List Json} {cs inside rest : List Char}
    (text : skipSpace cs = '[' :: inside) (ih : (Part.items items).ReadAs inside rest) :
    (Part.value (.arr items)).ReadAs cs rest := by
  intro _ fuel depth read after h
  cases fuel with
  | zero => cases h
  | succ fuel =>
    rw [value, text] at h
    simp only at h
    split at h
    · cases h
    · obtain ⟨⟨items', last⟩, hitems, heq⟩ := map_eq_ok.1 h
      cases heq
      obtain ⟨hafter, hread⟩ := ih _ _ _ _ hitems
      exact ⟨hafter, .arr hread⟩

theorem readAs_obj {members : List (String × Json)} {cs inside rest : List Char}
    (text : skipSpace cs = '\x7b' :: inside) (all : Spells (.members members) inside rest)
    (ih : (Part.members members).ReadAs inside rest) :
    (Part.value (.obj members)).ReadAs cs rest := by
  intro _ fuel depth read after h
  cases fuel with
  | zero => cases h
  | succ fuel =>
    rw [value, text] at h
    simp only at h
    split at h
    · cases h
    · split at h
      · next hname => exact all.heldNumber hname h
      · obtain ⟨⟨members', last⟩, hmembers, heq⟩ := map_eq_ok.1 h
        cases heq
        obtain ⟨hafter, hread⟩ := ih _ _ _ _ hmembers
        exact ⟨hafter, .obj hread⟩

/-- A member begins with a quote. -/
theorem Spells.quote {members : List (String × Json)} {cs rest : List Char}
    (h : Spells (.entry members) cs rest) : ∃ tail, skipSpace cs = '"' :: tail := by
  cases h with
  | entry spelled text => exact ⟨_, text⟩

theorem skipSpace_skipSpace (cs : List Char) : skipSpace (skipSpace cs) = skipSpace cs :=
  List.dropWhile_eq_self_iff.2 fun hlength => List.dropWhile_get_zero_not isSpace cs hlength

/-- What a value reader gives after white space, it gives before it. -/
theorem value_of_skipSpace {fuel depth : Nat} {cs rest : List Char} {d : Json}
    (h : value fuel depth (skipSpace cs) = .ok (d, rest)) : value fuel depth cs = .ok (d, rest) := by
  cases fuel with
  | zero => cases h
  | succ fuel =>
    rw [value, skipSpace_skipSpace] at h
    rw [value]
    exact h

/-- An item and the items after it. -/
theorem readAs_item {item v : Json} {more read : List Json} {fuel depth : Nat}
    {cs mid mid' rest after : List Char} (others : Spells (.moreItems more) mid rest)
    (ihfirst : (Part.value item).ReadAs cs mid) (ihothers : (Part.moreItems more).ReadAs mid rest)
    (hvalue : value fuel depth (skipSpace cs) = .ok (v, mid'))
    (h : (nextItem fuel depth mid').map (fun (items, rest) => (v :: items, rest)) =
      .ok (read, after)) : after = rest ∧ List.Forall₂ Collected (item :: more) read := by
  obtain ⟨rfl, hv⟩ := ihfirst others.endsNumber_moreItems _ _ _ _ (value_of_skipSpace hvalue)
  obtain ⟨⟨items, last⟩, hmore, heq⟩ := map_eq_ok.1 h
  cases heq
  obtain ⟨hafter, hothers⟩ := ihothers _ _ _ _ hmore
  exact ⟨hafter, .cons hv hothers⟩

theorem readAs_items {item : Json} {more : List Json} {cs mid rest : List Char}
    (first : Spells (.value item) cs mid) (others : Spells (.moreItems more) mid rest)
    (ihfirst : (Part.value item).ReadAs cs mid)
    (ihothers : (Part.moreItems more).ReadAs mid rest) :
    (Part.items (item :: more)).ReadAs cs rest := by
  intro fuel depth read after h
  cases fuel with
  | zero => cases h
  | succ fuel =>
    obtain ⟨c, tail, hhead, hbracket, -⟩ := first.head
    rw [firstItem, hhead] at h
    split at h
    · next heq => cases heq
    · next heq =>
      cases heq
      exact absurd rfl hbracket
    · split at h
      · cases h
      · next hvalue =>
        rw [← hhead] at hvalue
        exact readAs_item others ihfirst ihothers hvalue h

theorem readAs_nextItem {item : Json} {more : List Json} {cs next mid rest : List Char}
    (text : skipSpace cs = ',' :: next) (first : Spells (.value item) next mid)
    (others : Spells (.moreItems more) mid rest) (ihfirst : (Part.value item).ReadAs next mid)
    (ihothers : (Part.moreItems more).ReadAs mid rest) :
    (Part.moreItems (item :: more)).ReadAs cs rest := by
  intro fuel depth read after h
  cases fuel with
  | zero => cases h
  | succ fuel =>
    obtain ⟨c, tail, hhead, hbracket, -⟩ := first.head
    rw [nextItem, text] at h
    simp only [hhead] at h
    split at h
    · next heq => cases heq
    · next heq =>
      cases heq
      exact absurd rfl hbracket
    · split at h
      · cases h
      · next hvalue =>
        rw [← hhead] at hvalue
        exact readAs_item others ihfirst ihothers hvalue h

theorem readAs_entry {name : String} {v : Json} {more : List (String × Json)}
    {cs quoted after tail mid rest : List Char} (spelled : SpellsString quoted name.toList)
    (text : skipSpace cs = '"' :: (quoted ++ '"' :: after)) (separated : skipSpace after = ':' :: tail)
    (others : Spells (.moreMembers more) mid rest) (ihfirst : (Part.value v).ReadAs tail mid)
    (ihothers : (Part.moreMembers more).ReadAs mid rest) :
    (Part.entry ((name, v) :: more)).ReadAs cs rest := by
  intro fuel depth opened read last hquote h
  cases fuel with
  | zero => cases h
  | succ fuel =>
    rw [text] at hquote
    cases hquote
    rw [member, string_of_spellsString spelled] at h
    simp only [colon_of_skipSpace separated] at h
    split at h
    · cases h
    · next v' mid' hvalue =>
      obtain ⟨⟨more', last'⟩, hmore, heq⟩ := map_eq_ok.1 h
      cases heq
      obtain ⟨rfl, hv⟩ := ihfirst others.endsNumber_moreMembers _ _ _ _ hvalue
      obtain ⟨rfl, hothers⟩ := ihothers _ _ _ _ hmore
      exact ⟨rfl, .cons (.mk name hv) hothers⟩

theorem readAs_members {members : List (String × Json)} {cs rest : List Char}
    (all : Spells (.entry members) cs rest) (ih : (Part.entry members).ReadAs cs rest) :
    (Part.members members).ReadAs cs rest := by
  intro fuel depth read after h
  cases fuel with
  | zero => cases h
  | succ fuel =>
    obtain ⟨tail, htext⟩ := all.quote
    rw [firstMember, htext] at h
    exact ih _ _ _ _ _ htext h

theorem readAs_nextMember {members : List (String × Json)} {cs next rest : List Char}
    (text : skipSpace cs = ',' :: next) (all : Spells (.entry members) next rest)
    (ih : (Part.entry members).ReadAs next rest) : (Part.moreMembers members).ReadAs cs rest := by
  intro fuel depth read after h
  cases fuel with
  | zero => cases h
  | succ fuel =>
    obtain ⟨tail, htext⟩ := all.quote
    rw [nextMember, text] at h
    simp only [htext] at h
    exact ih _ _ _ _ _ htext h

/-- Where an array ends, no item is read. -/
theorem readAs_noItems {cs rest : List Char} (text : skipSpace cs = ']' :: rest) :
    (Part.items []).ReadAs cs rest ∧ (Part.moreItems []).ReadAs cs rest := by
  constructor <;>
  · intro fuel depth read after h
    cases fuel with
    | zero => cases h
    | succ fuel =>
      simp only [firstItem, nextItem, text] at h
      cases h
      exact ⟨rfl, .nil⟩

/-- Where an object ends, no member is read. -/
theorem readAs_noMembers {cs rest : List Char} (text : skipSpace cs = '\x7d' :: rest) :
    (Part.members []).ReadAs cs rest ∧ (Part.moreMembers []).ReadAs cs rest := by
  constructor <;>
  · intro fuel depth read after h
    cases fuel with
    | zero => cases h
    | succ fuel =>
      simp only [firstMember, nextMember, text] at h
      cases h
      exact ⟨rfl, .nil⟩

/-- A reader that does not refuse a part has read what is written, and stops where the part
ends. -/
theorem readAs_of_spells {part : Part} {cs rest : List Char} (h : Spells part cs rest) :
    part.ReadAs cs rest := by
  induction h with
  | literal known text => exact readAs_literal known text
  | num numeral text => exact readAs_num numeral text
  | str spelled text => exact readAs_str spelled text
  | arr text _ ih => exact readAs_arr text ih
  | obj text all ih => exact readAs_obj text all ih
  | noItems text => exact (readAs_noItems text).1
  | items first others ihfirst ihothers => exact readAs_items first others ihfirst ihothers
  | lastItem text => exact (readAs_noItems text).2
  | nextItem text first others ihfirst ihothers =>
    exact readAs_nextItem text first others ihfirst ihothers
  | noMembers text => exact (readAs_noMembers text).1
  | members all ih => exact readAs_members all ih
  | entry spelled text separated _ others ihfirst ihothers =>
    exact readAs_entry spelled text separated others ihfirst ihothers
  | lastMember text => exact (readAs_noMembers text).2
  | nextMember text all ih => exact readAs_nextMember text all ih

/-! ## What is kept of a document -/

/-- The document that a text holds is what the reader makes of the one that is written. -/
theorem collected_of_parse {d read : Json} {text : String} (h : IsTextOf d text)
    (hparse : parse text = .ok read) : Collected d read := by
  obtain ⟨rest, hspells, hend⟩ := h
  have hends : EndsNumber rest := endsNumber_of_skipSpace (by rw [hend]; nofun)
  unfold parse at hparse
  split at hparse
  · next hdocument =>
    cases hparse
    unfold document at hdocument
    split at hdocument
    · cases hdocument
    · next hvalue =>
      split at hdocument
      · cases hdocument
        exact (readAs_of_spells hspells hends _ _ _ _ hvalue).2
      · cases hdocument
  · cases hparse

theorem rel_member? {related : Json → Json → Prop} {written read : List (String × Json)}
    (h : List.Forall₂ (SameName related) written read) (name : String) :
    Option.Rel related (member? name written) (member? name read) := by
  induction h with
  | nil => exact .none
  | cons hhead _ ih =>
    obtain ⟨n, hvalue⟩ := hhead
    by_cases hname : n = name
    · simpa [member?, hname] using Option.Rel.some hvalue
    · simpa [member?, hname] using ih

theorem Collected.eq_str {read : Json} {s : String} (h : Collected (.str s) read) :
    read = .str s := by
  cases h
  rfl

/-- An object that is read has under every name what is made of the value written last for it.  The
only other thing that is made of an object is a number, and such an object has no name but the
reserved one. -/
theorem Collected.member_of_last {members : List (String × Json)} {read : Json}
    (h : Collected (.obj members) read) {name : String} {v : Json}
    (last : member? name members.reverse = some v) :
    (∃ kept v', read = .obj kept ∧ (name, v') ∈ kept ∧ Collected v v') ∨ name = numeralName := by
  cases h with
  | @obj _ written all =>
    have hrel := rel_member? (List.forall₂_reverse_iff.2 all) name
    rw [last] at hrel
    generalize hvalue : member? name written.reverse = value at hrel
    rcases hrel with ⟨hcollected⟩
    rw [← member?_collect] at hvalue
    exact Or.inl ⟨_, _, rfl, mem_of_member? hvalue, hcollected⟩
  | held value kept =>
    have hmem := List.mem_singleton.1 (mem_of_member? last)
    exact Or.inr (congrArg Prod.fst hmem)

end CardGate.Json
