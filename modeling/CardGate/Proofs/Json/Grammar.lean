import CardGate.Proofs.Json.RoundTrip

/-!
# The grammar of JSON texts

`Spells` says which texts write a document, with white space anywhere between the parts, characters
of strings behind escapes, and exponents of numbers in any form.  It knows nothing of the readers,
and how deep arrays and objects are nested makes no difference to it.  A name may be written more
than once in an object, and every member counts.

The compact form of a document is in the grammar, by `isTextOf_print`.
-/

namespace CardGate.Json

/-! ## Strings as they are written -/

/-- The letters of the short escapes, with what they stand for. -/
def shortEscapes : List (Char × Char) :=
  [('"', '"'), ('\\', '\\'), ('/', '/'), ('b', '\x08'), ('f', '\x0c'), ('n', '\n'), ('r', '\r'),
    ('t', '\t')]

/-- Four hexadecimal digits, and their value. -/
def IsQuad (digits : List Char) (n : Nat) : Prop :=
  digits.length = 4 ∧ Numeral.natural? 16 Numeral.hexDigit? digits = some n

/-- A text between quotes, and the characters that it stands for. -/
inductive SpellsString : List Char → List Char → Prop where
  | nil : SpellsString [] []
  | plain {c : Char} {cs s : List Char} (quote : c ≠ '"') (backslash : c ≠ '\\')
      (printable : ¬c < ' ') (more : SpellsString cs s) : SpellsString (c :: cs) (c :: s)
  | short {letter c : Char} {cs s : List Char} (known : (letter, c) ∈ shortEscapes)
      (more : SpellsString cs s) : SpellsString ('\\' :: letter :: cs) (c :: s)
  | code {digits cs s : List Char} {n : Nat} (value : IsQuad digits n)
      (whole : ¬(0xD800 ≤ n ∧ n ≤ 0xDFFF)) (more : SpellsString cs s) :
      SpellsString ('\\' :: 'u' :: (digits ++ cs)) (Char.ofNat n :: s)
  | pair {first second cs s : List Char} {high low : Nat} (value : IsQuad first high)
      (upper : 0xD800 ≤ high ∧ high ≤ 0xDBFF) (value' : IsQuad second low)
      (lower : 0xDC00 ≤ low ∧ low ≤ 0xDFFF) (more : SpellsString cs s) :
      SpellsString ('\\' :: 'u' :: (first ++ '\\' :: 'u' :: (second ++ cs)))
        (Char.ofNat ((high - 0xD800) * 0x400 + (low - 0xDC00) + 0x10000) :: s)

/-! ## Documents as they are written -/

/-- A part of a JSON text. -/
inductive Part where
  | value (d : Json)
  /-- The items of an array, with its closing bracket. -/
  | items (items : List Json)
  /-- What comes after an item. -/
  | moreItems (items : List Json)
  /-- The members of an object, with its closing brace. -/
  | members (members : List (String × Json))
  /-- A member and what comes after it. -/
  | entry (members : List (String × Json))
  /-- What comes after a member. -/
  | moreMembers (members : List (String × Json))

/-- The literals, with what they stand for. -/
def literals : List (List Char × Json) :=
  [(['n', 'u', 'l', 'l'], null), (['t', 'r', 'u', 'e'], bool true),
    (['f', 'a', 'l', 's', 'e'], bool false)]

/-- Whether a text begins with a part, and what comes after that.  The members of an object are
those that are written, in order, also if a name is repeated. -/
inductive Spells : Part → List Char → List Char → Prop where
  | literal {d : Json} {letters cs rest : List Char} (known : (letters, d) ∈ literals)
      (text : skipSpace cs = letters ++ rest) : Spells (.value d) cs rest
  | num {cs digits rest : List Char} (numeral : IsNumeral digits)
      (text : skipSpace cs = digits ++ rest) : Spells (.value (num (String.ofList digits))) cs rest
  | str {cs quoted rest : List Char} {s : String} (spelled : SpellsString quoted s.toList)
      (text : skipSpace cs = '"' :: (quoted ++ '"' :: rest)) : Spells (.value (str s)) cs rest
  | arr {cs inside rest : List Char} {items : List Json} (text : skipSpace cs = '[' :: inside)
      (all : Spells (.items items) inside rest) : Spells (.value (arr items)) cs rest
  | obj {cs inside rest : List Char} {members : List (String × Json)}
      (text : skipSpace cs = '\x7b' :: inside) (all : Spells (.members members) inside rest) :
      Spells (.value (obj members)) cs rest
  | noItems {cs rest : List Char} (text : skipSpace cs = ']' :: rest) : Spells (.items []) cs rest
  | items {cs mid rest : List Char} {item : Json} {more : List Json}
      (first : Spells (.value item) cs mid) (others : Spells (.moreItems more) mid rest) :
      Spells (.items (item :: more)) cs rest
  | lastItem {cs rest : List Char} (text : skipSpace cs = ']' :: rest) :
      Spells (.moreItems []) cs rest
  | nextItem {cs next mid rest : List Char} {item : Json} {more : List Json}
      (text : skipSpace cs = ',' :: next) (first : Spells (.value item) next mid)
      (others : Spells (.moreItems more) mid rest) : Spells (.moreItems (item :: more)) cs rest
  | noMembers {cs rest : List Char} (text : skipSpace cs = '\x7d' :: rest) :
      Spells (.members []) cs rest
  | members {cs rest : List Char} {members : List (String × Json)}
      (all : Spells (.entry members) cs rest) : Spells (.members members) cs rest
  | entry {cs quoted after tail mid rest : List Char} {name : String} {value : Json}
      {more : List (String × Json)} (spelled : SpellsString quoted name.toList)
      (text : skipSpace cs = '"' :: (quoted ++ '"' :: after))
      (colon : skipSpace after = ':' :: tail) (first : Spells (.value value) tail mid)
      (others : Spells (.moreMembers more) mid rest) : Spells (.entry ((name, value) :: more)) cs rest
  | lastMember {cs rest : List Char} (text : skipSpace cs = '\x7d' :: rest) :
      Spells (.moreMembers []) cs rest
  | nextMember {cs next rest : List Char} {members : List (String × Json)}
      (text : skipSpace cs = ',' :: next) (all : Spells (.entry members) next rest) :
      Spells (.moreMembers members) cs rest

/-- Whether a text writes a document, with nothing but white space around it. -/
def IsTextOf (d : Json) (text : String) : Prop :=
  ∃ rest, Spells (.value d) text.toList rest ∧ skipSpace rest = []

/-! ## The compact form -/

/-- A document that can be written: its numbers are numbers. -/
inductive Writable : Json → Prop where
  | null : Writable null
  | bool (b : Bool) : Writable (bool b)
  | num {digits : String} (numeral : IsNumeral digits.toList) : Writable (num digits)
  | str (s : String) : Writable (str s)
  | arr {items : List Json} (all : ∀ item ∈ items, Writable item) : Writable (arr items)
  | obj {members : List (String × Json)} (all : ∀ member ∈ members, Writable member.2) :
      Writable (obj members)

theorem spellsString_escaped_append (c : Char) {cs s : List Char} (h : SpellsString cs s) :
    SpellsString (escaped c ++ cs) (c :: s) := by
  unfold escaped
  split
  iterate 7 exact .short (by decide) h
  · next quote backslash _ _ _ _ _ =>
    split
    · next control =>
      have hc : c.toNat < 32 := control
      have hquad : IsQuad ['0', '0', Numeral.hexDigit (c.toNat / 16),
          Numeral.hexDigit (c.toNat % 16)] c.toNat := ⟨rfl, natural?_control control⟩
      have hspelled := SpellsString.code hquad (by omega) h
      rwa [Char.ofNat_toNat] at hspelled
    · next printable => exact .plain quote backslash printable h

theorem spellsString_flatMap_escaped (s : List Char) : SpellsString (s.flatMap escaped) s := by
  induction s with
  | nil => exact .nil
  | cons c s ih => exact spellsString_escaped_append c ih

theorem spells_moreItems_chars {items : List Json}
    (h : ∀ item ∈ items, ∀ rest, Spells (.value item) (item.chars ++ rest) rest)
    (rest : List Char) :
    Spells (.moreItems items) ((items.flatMap fun item => ',' :: item.chars) ++ ']' :: rest)
      rest := by
  induction items with
  | nil => exact .lastItem (skipSpace_cons (by decide) _)
  | cons item more ih =>
    have hmore := ih fun other hother => h other (List.mem_cons_of_mem _ hother)
    rw [List.flatMap_cons, List.cons_append, List.cons_append, List.append_assoc]
    exact .nextItem (skipSpace_cons (by decide) _) (h item List.mem_cons_self _) hmore

theorem spells_items_chars {items : List Json}
    (h : ∀ item ∈ items, ∀ rest, Spells (.value item) (item.chars ++ rest) rest)
    (rest : List Char) : Spells (.items items) (itemsChars items ++ ']' :: rest) rest := by
  cases items with
  | nil => exact .noItems (skipSpace_cons (by decide) _)
  | cons item more =>
    rw [itemsChars_cons, List.append_assoc]
    exact .items (h item List.mem_cons_self _)
      (spells_moreItems_chars (fun other hother => h other (List.mem_cons_of_mem _ hother)) rest)

theorem spells_entry_chars {name : String} {v : Json} {more : List (String × Json)}
    {mid rest : List Char} (hv : ∀ rest, Spells (.value v) (v.chars ++ rest) rest)
    (hmore : Spells (.moreMembers more) mid rest) :
    Spells (.entry ((name, v) :: more)) (memberChars (name, v) ++ mid) rest := by
  have htext : memberChars (name, v) ++ mid =
      '"' :: (name.toList.flatMap escaped ++ '"' :: ':' :: (v.chars ++ mid)) := by
    simp [memberChars, stringChars]
  rw [htext]
  exact .entry (spellsString_flatMap_escaped _) (skipSpace_cons (by decide) _)
    (skipSpace_cons (by decide) _) (hv mid) hmore

theorem spells_moreMembers_chars {members : List (String × Json)}
    (h : ∀ entry ∈ members, ∀ rest, Spells (.value entry.2) (entry.2.chars ++ rest) rest)
    (rest : List Char) :
    Spells (.moreMembers members)
      ((members.flatMap fun entry => ',' :: memberChars entry) ++ '\x7d' :: rest) rest := by
  induction members with
  | nil => exact .lastMember (skipSpace_cons (by decide) _)
  | cons entry more ih =>
    have hmore := ih fun other hother => h other (List.mem_cons_of_mem _ hother)
    rw [List.flatMap_cons, List.cons_append, List.cons_append, List.append_assoc]
    exact .nextMember (skipSpace_cons (by decide) _)
      (spells_entry_chars (h entry List.mem_cons_self) hmore)

theorem spells_members_chars {members : List (String × Json)}
    (h : ∀ entry ∈ members, ∀ rest, Spells (.value entry.2) (entry.2.chars ++ rest) rest)
    (rest : List Char) : Spells (.members members) (membersChars members ++ '\x7d' :: rest) rest := by
  cases members with
  | nil => exact .noMembers (skipSpace_cons (by decide) _)
  | cons entry more =>
    rw [membersChars_cons, List.append_assoc]
    exact .members (spells_entry_chars (h entry List.mem_cons_self)
      (spells_moreMembers_chars (fun other hother => h other (List.mem_cons_of_mem _ hother)) rest))

/-- The compact form of a document is in the grammar. -/
theorem spells_chars {d : Json} (h : Writable d) (rest : List Char) :
    Spells (.value d) (d.chars ++ rest) rest := by
  induction h generalizing rest with
  | null =>
    have known : (null.chars, null) ∈ literals := by simp [literals, chars]
    exact .literal known rfl
  | bool b =>
    have known : ((bool b).chars, bool b) ∈ literals := by cases b <;> simp [literals, chars]
    exact .literal known (by cases b <;> rfl)
  | @num digits numeral =>
    obtain ⟨c, more, hhead, hc⟩ := numeral.head
    have htext : skipSpace (digits.toList ++ rest) = digits.toList ++ rest := by
      rw [hhead, List.cons_append, skipSpace_cons (isSpace_of_number hc)]
    have hspells := Spells.num numeral htext
    rwa [String.ofList_toList] at hspells
  | str s =>
    refine .str (spellsString_flatMap_escaped _) ?_
    rw [chars, stringChars, List.append_assoc, List.cons_append, skipSpace_cons (by decide)]
    rfl
  | arr _ ih =>
    rw [chars, List.append_assoc, List.cons_append]
    exact .arr (skipSpace_cons (by decide) _) (spells_items_chars ih rest)
  | obj _ ih =>
    rw [chars, List.append_assoc, List.cons_append]
    exact .obj (skipSpace_cons (by decide) _) (spells_members_chars ih rest)

theorem isTextOf_print {d : Json} (h : Writable d) : IsTextOf d d.print := by
  have hspells := spells_chars h []
  rw [List.append_nil] at hspells
  exact ⟨[], by rwa [print, String.toList_ofList], rfl⟩

end CardGate.Json
