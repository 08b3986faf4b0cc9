import CardGate.Proofs.Json.Quoted
import CardGate.Proofs.Json.Written

/-!
# Documents are read back

The main statement is `parse_print`: a document that comes from a text is what its compact form
holds.

The readers take fuel, and the induction over the document (`readsBack`) carries how much of it
the compact form needs: two for every character.  It also carries what may come after a value,
which matters to numbers only (`EndsNumber`); a comma or a closing bracket will do.
-/

namespace CardGate.Json

/-! ## The compact form of lists -/

/-- A member as it stands in an object. -/
def memberChars (member : String × Json) : List Char :=
  stringChars member.1 ++ ':' :: member.2.chars

theorem itemsChars_cons (item : Json) (more : List Json) :
    itemsChars (item :: more) = item.chars ++ more.flatMap fun item => ',' :: item.chars := by
  induction more generalizing item with
  | nil => simp [itemsChars]
  | cons next more ih => rw [itemsChars, ih, List.flatMap_cons, List.cons_append]; simp

theorem membersChars_cons (member : String × Json) (more : List (String × Json)) :
    membersChars (member :: more) =
      memberChars member ++ more.flatMap fun member => ',' :: memberChars member := by
  obtain ⟨name, v⟩ := member
  induction more generalizing name v with
  | nil => simp [membersChars, memberChars]
  | cons next more ih =>
    obtain ⟨name', v'⟩ := next
    rw [membersChars, ih, List.flatMap_cons]
    · simp [memberChars]
    · simp

/-! ## Between the parts -/

theorem skipSpace_cons {c : Char} (h : isSpace c = false) (rest : List Char) :
    skipSpace (c :: rest) = c :: rest := by
  simp [skipSpace, h]

theorem isSpace_of_number {c : Char} (h : c = '-' ∨ c.isDigit = true) : isSpace c = false := by
  rcases h with rfl | h
  · decide
  · cases hspace : isSpace c with
    | false => rfl
    | true =>
      simp only [isSpace, Bool.or_eq_true, beq_iff_eq] at hspace
      rcases hspace with ((rfl | rfl) | rfl) | rfl <;> simp at h

/-- A value begins neither with a space nor with a closing bracket. -/
theorem Written.head {depth : Nat} {d : Json} (h : Written depth d) :
    ∃ c more, d.chars = c :: more ∧ isSpace c = false ∧ c ≠ ']' := by
  cases h with
  | null => exact ⟨_, _, rfl, by decide, by decide⟩
  | bool b => cases b <;> exact ⟨_, _, rfl, by decide, by decide⟩
  | num number =>
    obtain ⟨c, more, hhead, hc⟩ := number.isNumeral.head
    refine ⟨c, more, hhead, isSpace_of_number hc, ?_⟩
    rintro rfl
    simp at hc
  | str s => exact ⟨_, _, rfl, by decide, by decide⟩
  | arr all => exact ⟨_, _, rfl, by decide, by decide⟩
  | obj distinct plain all => exact ⟨_, _, rfl, by decide, by decide⟩

/-! ## Values -/

/-- Whether a document is read back from its compact form, given enough fuel. -/
def ReadsBack (depth : Nat) (d : Json) : Prop :=
  ∀ (fuel : Nat) (rest : List Char), 2 * d.chars.length ≤ fuel → EndsNumber rest →
    value fuel depth (d.chars ++ rest) = .ok (d, rest)

/-- Numbers end where the next part of a list or its end begins. -/
theorem endsNumber_parts {α : Type} (parts : List α) (part : α → List Char) (close : Char)
    (rest : List Char) (h : continuesNumber close = false) :
    EndsNumber ((parts.flatMap fun p => ',' :: part p) ++ close :: rest) := by
  cases parts with
  | nil => exact EndsNumber.cons h
  | cons p more => exact EndsNumber.cons (by decide)

/-- An item is read back, and what begins it is neither skipped nor taken for the end. -/
theorem item_chars {depth : Nat} {item : Json} (hwritten : Written depth item)
    (hback : ReadsBack depth item) (fuel : Nat) (hfuel : 2 * item.chars.length ≤ fuel)
    {after : List Char} (hends : EndsNumber after) :
    ∃ c tail, item.chars ++ after = c :: tail ∧ isSpace c = false ∧ c ≠ ']' ∧
      value fuel depth (c :: tail) = .ok (item, after) := by
  obtain ⟨c, cs, hhead, hspace, hbracket⟩ := hwritten.head
  have hitem := hback fuel after hfuel hends
  rw [hhead, List.cons_append] at hitem
  exact ⟨c, cs ++ after, by rw [hhead, List.cons_append], hspace, hbracket, hitem⟩

theorem nextItem_chars {depth : Nat} {items : List Json}
    (h : ∀ item ∈ items, Written depth item ∧ ReadsBack depth item) (fuel : Nat)
    (hfuel : 2 * (items.flatMap fun item => ',' :: item.chars).length + 1 ≤ fuel)
    (rest : List Char) :
    nextItem fuel depth ((items.flatMap fun item => ',' :: item.chars) ++ ']' :: rest) =
      .ok (items, rest) := by
  obtain ⟨fuel, rfl⟩ : ∃ n, fuel = n + 1 := ⟨fuel - 1, by omega⟩
  induction items generalizing fuel with
  | nil => rfl
  | cons item more ih =>
    obtain ⟨hwritten, hback⟩ := h item List.mem_cons_self
    simp only [List.flatMap_cons, List.length_append, List.length_cons] at hfuel
    obtain ⟨fuel, rfl⟩ : ∃ n, fuel = n + 1 := ⟨fuel - 1, by omega⟩
    have hmore := ih (fun other hother => h other (List.mem_cons_of_mem _ hother)) fuel (by omega)
    obtain ⟨c, tail, htext, hspace, hbracket, hitem⟩ := item_chars hwritten hback (fuel + 1)
      (by omega) (endsNumber_parts more chars ']' rest (by decide))
    rw [List.flatMap_cons, List.cons_append, List.cons_append, List.append_assoc, nextItem,
      skipSpace_cons (by decide)]
    simp only
    rw [htext, skipSpace_cons hspace]
    split
    · next heq => cases heq
    · next heq =>
      cases heq
      exact absurd rfl hbracket
    · rw [hitem]
      simp only
      rw [hmore]
      rfl

theorem firstItem_chars {depth : Nat} {items : List Json}
    (h : ∀ item ∈ items, Written depth item ∧ ReadsBack depth item) {fuel : Nat}
    (hfuel : 2 * (itemsChars items).length + 2 ≤ fuel) (rest : List Char) :
    firstItem fuel depth (itemsChars items ++ ']' :: rest) = .ok (items, rest) := by
  obtain ⟨fuel, rfl⟩ : ∃ n, fuel = n + 1 := ⟨fuel - 1, by omega⟩
  cases items with
  | nil => rfl
  | cons item more =>
    obtain ⟨hwritten, hback⟩ := h item List.mem_cons_self
    rw [itemsChars_cons, List.length_append] at hfuel
    have hmore := nextItem_chars (fun other hother => h other (List.mem_cons_of_mem item hother))
      fuel (by omega) rest
    obtain ⟨c, tail, htext, hspace, hbracket, hitem⟩ := item_chars hwritten hback fuel
      (by omega) (endsNumber_parts more chars ']' rest (by decide))
    rw [itemsChars_cons, List.append_assoc, firstItem, htext, skipSpace_cons hspace]
    split
    · next heq => cases heq
    · next heq =>
      cases heq
      exact absurd rfl hbracket
    · rw [hitem]
      simp only
      rw [hmore]
      rfl

/-- A member is read back together with the members after it. -/
theorem member_chars {depth : Nat} {entry : String × Json} (hback : ReadsBack depth entry.2)
    (fuel : Nat) (hfuel : 2 * entry.2.chars.length ≤ fuel) {after rest : List Char}
    (hends : EndsNumber after) {more : List (String × Json)}
    (hmore : nextMember fuel depth after = .ok (more, rest)) :
    ∃ tail, memberChars entry ++ after = '"' :: tail ∧
      member (fuel + 1) depth tail = .ok (entry :: more, rest) := by
  obtain ⟨name, v⟩ := entry
  obtain ⟨tail, htail, hname⟩ := string_stringChars name (':' :: (v.chars ++ after))
  refine ⟨tail, by rw [← htail]; simp [memberChars], ?_⟩
  have hcolon : colon (':' :: (v.chars ++ after)) = .ok (v.chars ++ after) := rfl
  rw [member, hname]
  simp only
  rw [hcolon]
  simp only
  rw [hback fuel after hfuel hends]
  simp only
  rw [hmore]
  rfl

theorem length_memberChars (entry : String × Json) :
    entry.2.chars.length + 3 ≤ (memberChars entry).length := by
  simp only [memberChars, stringChars, List.length_append, List.length_cons, List.length_nil]
  omega

theorem nextMember_chars {depth : Nat} {members : List (String × Json)}
    (h : ∀ entry ∈ members, ReadsBack depth entry.2) (fuel : Nat)
    (hfuel : 2 * (members.flatMap fun entry => ',' :: memberChars entry).length + 1 ≤ fuel)
    (rest : List Char) :
    nextMember fuel depth ((members.flatMap fun entry => ',' :: memberChars entry) ++
      '\x7d' :: rest) = .ok (members, rest) := by
  obtain ⟨fuel, rfl⟩ : ∃ n, fuel = n + 1 := ⟨fuel - 1, by omega⟩
  induction members generalizing fuel with
  | nil => rfl
  | cons entry more ih =>
    have hlength := length_memberChars entry
    simp only [List.flatMap_cons, List.length_append, List.length_cons] at hfuel
    obtain ⟨fuel, rfl⟩ : ∃ n, fuel = n + 2 := ⟨fuel - 2, by omega⟩
    have hmore := ih (fun other hother => h other (by simp [hother])) fuel (by omega)
    obtain ⟨tail, htail, hmember⟩ := member_chars (h entry (by simp)) (fuel + 1) (by omega)
      (endsNumber_parts more memberChars '\x7d' rest (by decide)) hmore
    rw [List.flatMap_cons, List.cons_append, List.cons_append, List.append_assoc, nextMember,
      skipSpace_cons (by decide)]
    simp only
    rw [htail, skipSpace_cons (by decide)]
    exact hmember

theorem firstMember_chars {depth : Nat} {members : List (String × Json)}
    (h : ∀ entry ∈ members, ReadsBack depth entry.2) {fuel : Nat}
    (hfuel : 2 * (membersChars members).length + 2 ≤ fuel) (rest : List Char) :
    firstMember fuel depth (membersChars members ++ '\x7d' :: rest) = .ok (members, rest) := by
  obtain ⟨fuel, rfl⟩ : ∃ n, fuel = n + 1 := ⟨fuel - 1, by omega⟩
  cases members with
  | nil => rfl
  | cons entry more =>
    have hlength := length_memberChars entry
    rw [membersChars_cons, List.length_append] at hfuel
    obtain ⟨fuel, rfl⟩ : ∃ n, fuel = n + 1 := ⟨fuel - 1, by omega⟩
    have hmore := nextMember_chars
      (fun other hother => h other (List.mem_cons_of_mem entry hother)) fuel (by omega) rest
    obtain ⟨tail, htail, hmember⟩ := member_chars (h entry (by simp)) fuel (by omega)
      (endsNumber_parts more memberChars '\x7d' rest (by decide)) hmore
    rw [membersChars_cons, List.append_assoc, firstMember, htail, skipSpace_cons (by decide)]
    exact hmember

/-- The members of an object do not pass for a number. -/
theorem afterNumeralName?_chars {members : List (String × Json)}
    (h : (members.map (·.1)).head? ≠ some numeralName) (rest : List Char) :
    afterNumeralName? (membersChars members ++ '\x7d' :: rest) = none := by
  cases members with
  | nil => rfl
  | cons entry more =>
    obtain ⟨name, v⟩ := entry
    have hne : name ≠ numeralName := by simpa using h
    rw [membersChars_cons, memberChars, List.append_assoc, List.append_assoc, afterNumeralName?]
    obtain ⟨tail, htail, hname⟩ := string_stringChars name
      ((':' :: v.chars) ++ ((more.flatMap fun entry => ',' :: memberChars entry) ++ '\x7d' :: rest))
    rw [htail, skipSpace_cons (by decide)]
    simp only [hname, if_neg hne]

/-- An object is read back by its members, with repeated names brought together. -/
theorem value_objChars {depth fuel : Nat} {members : List (String × Json)}
    (plain : (members.map (·.1)).head? ≠ some numeralName)
    (h : ∀ entry ∈ members, ReadsBack depth entry.2)
    (hfuel : 2 * (obj members).chars.length ≤ fuel) {rest : List Char} :
    value fuel (depth + 1) ((obj members).chars ++ rest) = .ok (obj (collect members), rest) := by
  simp only [chars, List.cons_append, List.append_assoc, List.nil_append, List.length_cons,
    List.length_append, List.length_nil] at hfuel ⊢
  obtain ⟨fuel, rfl⟩ : ∃ n, fuel = n + 1 := ⟨fuel - 1, by omega⟩
  rw [value, skipSpace_cons (by decide)]
  simp only
  rw [afterNumeralName?_chars plain, firstMember_chars h (by omega)]
  rfl

/-- Every document that comes from a text is read back. -/
theorem readsBack {depth : Nat} {d : Json} (h : Written depth d) : ReadsBack depth d := by
  induction h with
  | null =>
    intro fuel rest hfuel _
    obtain ⟨fuel, rfl⟩ : ∃ n, fuel = n + 1 := ⟨fuel - 1, by simp [chars] at hfuel; omega⟩
    rfl
  | bool b =>
    intro fuel rest hfuel _
    obtain ⟨fuel, rfl⟩ : ∃ n, fuel = n + 1 :=
      ⟨fuel - 1, by cases b <;> simp [chars] at hfuel <;> omega⟩
    cases b <;> rfl
  | @num depth digits number =>
    intro fuel rest hfuel hrest
    obtain ⟨c, more, hhead, hc⟩ := number.isNumeral.head
    have hread := number_append number hrest
    rw [chars, hhead, List.length_cons] at hfuel
    obtain ⟨fuel, rfl⟩ : ∃ n, fuel = n + 1 := ⟨fuel - 1, by omega⟩
    rw [chars, value]
    rw [hhead, List.cons_append] at hread ⊢
    rw [skipSpace_cons (isSpace_of_number hc)]
    simp only
    split
    iterate 6 simp at hc
    rw [if_pos hc, hread, ← hhead]
    simp [Except.map]
  | str s =>
    intro fuel rest hfuel _
    obtain ⟨tail, htail, hread⟩ := string_stringChars s rest
    obtain ⟨fuel, rfl⟩ : ∃ n, fuel = n + 1 :=
      ⟨fuel - 1, by simp [chars, stringChars] at hfuel; omega⟩
    rw [chars, htail, value, skipSpace_cons (by decide)]
    simp only [hread]
    rfl
  | arr all ih =>
    intro fuel rest hfuel _
    simp only [chars, List.cons_append, List.append_assoc, List.nil_append, List.length_cons,
      List.length_append, List.length_nil] at hfuel ⊢
    obtain ⟨fuel, rfl⟩ : ∃ n, fuel = n + 1 := ⟨fuel - 1, by omega⟩
    rw [value, skipSpace_cons (by decide)]
    simp only
    rw [firstItem_chars (fun item hitem => ⟨all item hitem, ih item hitem⟩) (by omega)]
    rfl
  | obj distinct plain all ih =>
    intro fuel rest hfuel _
    rw [value_objChars plain ih hfuel, collect_eq_self distinct]

theorem parse_of_value {text : String} {d : Json}
    (h : value (2 * text.toList.length + 2) maxDepth text.toList = .ok (d, [])) :
    parse text = .ok d := by
  simp [parse, document, h, skipSpace]

/-- The compact form of a document that comes from a text holds that document. -/
theorem parse_print {d : Json} (h : Written maxDepth d) : parse d.print = .ok d := by
  have hread := readsBack h (2 * d.chars.length + 2) [] (by omega) EndsNumber.nil
  rw [List.append_nil] at hread
  exact parse_of_value (by rwa [print, String.toList_ofList])

/-- The compact form of an object in which names are repeated holds the object that has each name
once. -/
theorem parse_print_obj {members : List (String × Json)}
    (plain : (members.map (·.1)).head? ≠ some numeralName)
    (h : ∀ entry ∈ members, Written (maxDepth - 1) entry.2) :
    parse (obj members).print = .ok (obj (collect members)) := by
  have hread : value (2 * (obj members).chars.length + 2) maxDepth ((obj members).chars ++ []) =
      .ok (obj (collect members), []) :=
    value_objChars plain (fun entry hentry => readsBack (h entry hentry)) (by omega)
  rw [List.append_nil] at hread
  exact parse_of_value (by rwa [print, String.toList_ofList])

end CardGate.Json
