import CardGate.Proofs.Json.Number
import Mathlib.Data.List.Nodup

/-!
# Documents that come from a text

Not every document can be read from a text: a number must be a number, the names in an object are
distinct, an object with the reserved name in front is no object, and nesting is bounded.
`Written` gathers this, with the depth that is left for nesting.

The main statement is `written_of_parse`: what the reader gives is such a document.
-/

namespace CardGate.Json

/-- A document as it comes from a text, nested at most `depth` deep. -/
inductive Written : Nat → Json → Prop where
  | null {depth : Nat} : Written depth null
  | bool {depth : Nat} (b : Bool) : Written depth (bool b)
  | num {depth : Nat} {digits : String} (number : IsNumber digits.toList) :
      Written depth (num digits)
  | str {depth : Nat} (s : String) : Written depth (str s)
  | arr {depth : Nat} {items : List Json} (all : ∀ item ∈ items, Written depth item) :
      Written (depth + 1) (arr items)
  | obj {depth : Nat} {members : List (String × Json)} (distinct : (members.map (·.1)).Nodup)
      (plain : (members.map (·.1)).head? ≠ some numeralName)
      (all : ∀ member ∈ members, Written depth member.2) : Written (depth + 1) (obj members)

/-! ## Members brought together -/

theorem mem_put {name : String} {value : Json} {members : List (String × Json)}
    {member : String × Json} (h : member ∈ put name value members) :
    member = (name, value) ∨ member ∈ members := by
  induction members with
  | nil => exact Or.inl (List.mem_singleton.1 h)
  | cons entry rest ih =>
    rw [put] at h
    split_ifs at h
    · rcases List.mem_cons.1 h with h | h
      · exact Or.inl h
      · exact Or.inr (List.mem_cons_of_mem _ h)
    · rcases List.mem_cons.1 h with h | h
      · exact Or.inr (h ▸ List.mem_cons_self)
      · rcases ih h with h | h
        · exact Or.inl h
        · exact Or.inr (List.mem_cons_of_mem _ h)

/-- The members of an object after more of them are written. -/
def collectInto (members written : List (String × Json)) : List (String × Json) :=
  written.foldl (fun members (name, value) => put name value members) members

theorem collectInto_nil (members : List (String × Json)) : collectInto members [] = members :=
  rfl

theorem collectInto_cons (members : List (String × Json)) (name : String) (value : Json)
    (rest : List (String × Json)) :
    collectInto members ((name, value) :: rest) = collectInto (put name value members) rest :=
  rfl

theorem collect_eq_collectInto (written : List (String × Json)) :
    collect written = collectInto [] written :=
  rfl

/-- Distinct names stay distinct, and the first of all names stays in front. -/
theorem map_fst_collectInto (members written : List (String × Json))
    (h : (members.map (·.1)).Nodup) :
    ((collectInto members written).map (·.1)).Nodup ∧
      ((collectInto members written).map (·.1)).head? = ((members ++ written).map (·.1)).head? := by
  induction written generalizing members with
  | nil => simpa [collectInto_nil] using h
  | cons entry rest ih =>
    obtain ⟨name, value⟩ := entry
    have hnames := map_fst_put name value members
    have hnodup : ((put name value members).map (·.1)).Nodup := by
      rw [hnames]
      split_ifs with hmem
      · exact h
      · exact List.nodup_append'.2 ⟨h, by simp, by simpa using hmem⟩
    obtain ⟨hall, hhead⟩ := ih (put name value members) hnodup
    refine ⟨hall, ?_⟩
    rw [collectInto_cons, hhead, List.map_append, List.map_append, hnames]
    cases members with
    | nil => simp
    | cons first more => split_ifs <;> simp

theorem mem_collectInto {members written : List (String × Json)} {member : String × Json}
    (h : member ∈ collectInto members written) : member ∈ members ∨ member ∈ written := by
  induction written generalizing members with
  | nil => exact Or.inl h
  | cons entry rest ih =>
    rcases ih h with h | h
    · rcases mem_put h with h | h
      · exact Or.inr (h ▸ List.mem_cons_self)
      · exact Or.inl h
    · exact Or.inr (List.mem_cons_of_mem _ h)

theorem put_of_not_mem {name : String} {members : List (String × Json)}
    (h : name ∉ members.map (·.1)) (value : Json) :
    put name value members = members ++ [(name, value)] := by
  induction members with
  | nil => rfl
  | cons entry rest ih =>
    rw [List.map_cons, List.mem_cons, not_or] at h
    rw [put, if_neg (Ne.symm h.1), ih h.2, List.cons_append]

theorem collectInto_of_nodup {members written : List (String × Json)}
    (h : ((members ++ written).map (·.1)).Nodup) :
    collectInto members written = members ++ written := by
  induction written generalizing members with
  | nil => simp [collectInto_nil]
  | cons entry rest ih =>
    obtain ⟨name, value⟩ := entry
    have hnew : name ∉ members.map (·.1) := by
      rw [List.map_append, List.map_cons, List.nodup_middle, List.nodup_cons] at h
      exact fun hmem => h.1 (List.mem_append_left _ hmem)
    rw [collectInto_cons, put_of_not_mem hnew, ih (by simpa using h)]
    simp

/-- Members with distinct names stay as they are. -/
theorem collect_eq_self {members : List (String × Json)} (h : (members.map (·.1)).Nodup) :
    collect members = members := by
  rw [collect_eq_collectInto, collectInto_of_nodup (by simpa using h), List.nil_append]

theorem member?_cons_self (name : String) (value : Json) (members : List (String × Json)) :
    member? name ((name, value) :: members) = some value := by
  rw [member?, List.find?_cons_of_pos (by simp), Option.map_some]

theorem member?_cons_of_ne {name other : String} (h : other ≠ name) (value : Json)
    (members : List (String × Json)) :
    member? name ((other, value) :: members) = member? name members := by
  rw [member?, List.find?_cons_of_neg (by simpa using h), member?]

theorem member?_eq_none_iff {name : String} {members : List (String × Json)} :
    member? name members = none ↔ name ∉ members.map (·.1) := by
  rw [member?, Option.map_eq_none_iff, List.find?_eq_none, List.mem_map]
  simp only [decide_eq_true_eq, not_exists, not_and]

theorem member?_append (name : String) (members more : List (String × Json)) :
    member? name (members ++ more) = (member? name members).or (member? name more) := by
  rw [member?, List.find?_append, Option.map_or]
  rfl

theorem member?_collectInto (name : String) (members written : List (String × Json)) :
    member? name (collectInto members written) =
      (member? name written.reverse).or (member? name members) := by
  induction written generalizing members with
  | nil => rfl
  | cons entry rest ih =>
    obtain ⟨n, value⟩ := entry
    rw [collectInto_cons, ih, member?_put, List.reverse_cons, member?_append, Option.or_assoc]
    by_cases h : n = name <;> simp [member?, h]

/-- An object has under a name what is written last for it. -/
theorem member?_collect (name : String) (written : List (String × Json)) :
    member? name (collect written) = member? name written.reverse := by
  rw [collect_eq_collectInto, member?_collectInto]
  exact Option.or_none

theorem mem_of_member? {name : String} {value : Json} {members : List (String × Json)}
    (h : member? name members = some value) : (name, value) ∈ members := by
  obtain ⟨⟨n, v⟩, hfind, rfl⟩ := Option.map_eq_some_iff.1 h
  have hname : n = name := by simpa using List.find?_some hfind
  exact hname ▸ List.mem_of_find?_eq_some hfind

/-! ## What the reader gives -/

/-- An object whose first name is not reserved is read by its members, so that name is not the
reserved one. -/
theorem head?_of_firstMember {fuel depth : Nat} {cs rest : List Char}
    {members : List (String × Json)} (hplain : afterNumeralName? cs = none)
    (h : firstMember fuel depth cs = .ok (members, rest)) :
    (members.map (·.1)).head? ≠ some numeralName := by
  cases fuel with
  | zero => simp [firstMember] at h
  | succ fuel =>
    rw [firstMember] at h
    rw [afterNumeralName?] at hplain
    split at h
    · cases h
    · cases h
      simp
    · next quoted hquoted =>
      rw [hquoted] at hplain
      cases fuel with
      | zero => simp [member] at h
      | succ fuel =>
        rw [member] at h
        split at h
        · cases h
        · next name after hname =>
          simp only [hname] at hplain
          have hne : name ≠ numeralName := by
            rintro rfl
            simp at hplain
          split at h
          · cases h
          · split at h
            · cases h
            · obtain ⟨⟨more, last⟩, _, heq⟩ := map_eq_ok.1 h
              cases heq
              simpa using hne
    · cases h

theorem isNumber_of_numeral {cs digits : List Char} (h : numeral cs = .ok digits) :
    IsNumber digits := by
  unfold numeral at h
  split at h
  · cases h
  · split at h
    · split at h
      · cases h
      · next hnumber =>
        cases h
        exact isNumber_of_number hnumber
      · cases h
    · cases h

/-- An object that stands for a number holds one. -/
theorem written_of_heldNumber {cs rest : List Char} {d : Json}
    (h : heldNumber cs = .ok (d, rest)) (depth : Nat) : Written depth d := by
  unfold heldNumber at h
  split at h
  · cases h
  · split at h
    · split at h
      · cases h
      · split at h
        · cases h
        · next digits hdigits =>
          obtain ⟨after, _, heq⟩ := map_eq_ok.1 h
          cases heq
          exact .num (by simpa using isNumber_of_numeral hdigits)
    · cases h

/-- What the readers of values give with some fuel. -/
structure ReadsWritten (fuel : Nat) : Prop where
  value {depth : Nat} {cs rest : List Char} {d : Json} :
    value fuel depth cs = .ok (d, rest) → Written depth d
  firstItem {depth : Nat} {cs rest : List Char} {items : List Json} :
    firstItem fuel depth cs = .ok (items, rest) → ∀ item ∈ items, Written depth item
  nextItem {depth : Nat} {cs rest : List Char} {items : List Json} :
    nextItem fuel depth cs = .ok (items, rest) → ∀ item ∈ items, Written depth item
  firstMember {depth : Nat} {cs rest : List Char} {members : List (String × Json)} :
    firstMember fuel depth cs = .ok (members, rest) → ∀ member ∈ members, Written depth member.2
  nextMember {depth : Nat} {cs rest : List Char} {members : List (String × Json)} :
    nextMember fuel depth cs = .ok (members, rest) → ∀ member ∈ members, Written depth member.2
  member {depth : Nat} {cs rest : List Char} {members : List (String × Json)} :
    member fuel depth cs = .ok (members, rest) → ∀ member ∈ members, Written depth member.2

namespace ReadsWritten

variable {fuel : Nat}

theorem value_succ (ih : ReadsWritten fuel) {depth : Nat} {cs rest : List Char} {d : Json}
    (h : Json.value (fuel + 1) depth cs = .ok (d, rest)) : Written depth d := by
  rw [Json.value] at h
  split at h
  · cases h
  · split at h
    · obtain ⟨after, _, heq⟩ := map_eq_ok.1 h
      cases heq
      exact .null
    · obtain ⟨after, _, heq⟩ := map_eq_ok.1 h
      cases heq
      exact .bool true
    · obtain ⟨after, _, heq⟩ := map_eq_ok.1 h
      cases heq
      exact .bool false
    · obtain ⟨⟨s, after⟩, _, heq⟩ := map_eq_ok.1 h
      cases heq
      exact .str s
    · split at h
      · cases h
      · obtain ⟨⟨items, after⟩, hitems, heq⟩ := map_eq_ok.1 h
        cases heq
        exact .arr (ih.firstItem hitems)
    · split at h
      · cases h
      · split at h
        · exact written_of_heldNumber h _
        · next hplain =>
          obtain ⟨⟨written, after⟩, hwritten, heq⟩ := map_eq_ok.1 h
          cases heq
          rw [collect_eq_collectInto]
          have hnames := map_fst_collectInto [] written (by simp)
          refine .obj hnames.1 ?_ fun member hmember => ?_
          · rw [hnames.2]
            exact head?_of_firstMember hplain hwritten
          · have hmem := mem_collectInto hmember
            exact ih.firstMember hwritten member (hmem.resolve_left (by simp))
    · split at h
      · obtain ⟨⟨digits, after⟩, hdigits, heq⟩ := map_eq_ok.1 h
        cases heq
        exact .num (by simpa using isNumber_of_number hdigits)
      · cases h

/-- An item and the items after it. -/
theorem items_of_value (ih : ReadsWritten fuel) {depth : Nat} {cs after rest : List Char}
    {item : Json} {items : List Json} (hitem : Json.value fuel depth cs = .ok (item, after))
    (h : (Json.nextItem fuel depth after).map (fun (items, rest) => (item :: items, rest)) =
      .ok (items, rest)) : ∀ item ∈ items, Written depth item := by
  obtain ⟨⟨more, last⟩, hmore, heq⟩ := map_eq_ok.1 h
  cases heq
  intro other hother
  rcases List.mem_cons.1 hother with rfl | hother
  · exact ih.value hitem
  · exact ih.nextItem hmore other hother

theorem firstItem_succ (ih : ReadsWritten fuel) {depth : Nat} {cs rest : List Char}
    {items : List Json} (h : Json.firstItem (fuel + 1) depth cs = .ok (items, rest)) :
    ∀ item ∈ items, Written depth item := by
  rw [Json.firstItem] at h
  split at h
  · cases h
  · cases h
    simp
  · split at h
    · cases h
    · next hitem => exact ih.items_of_value hitem h

theorem nextItem_succ (ih : ReadsWritten fuel) {depth : Nat} {cs rest : List Char}
    {items : List Json} (h : Json.nextItem (fuel + 1) depth cs = .ok (items, rest)) :
    ∀ item ∈ items, Written depth item := by
  rw [Json.nextItem] at h
  split at h
  · cases h
  · cases h
    simp
  · split at h
    · cases h
    · cases h
    · split at h
      · cases h
      · next hitem => exact ih.items_of_value hitem h
  · cases h

theorem firstMember_succ (ih : ReadsWritten fuel) {depth : Nat} {cs rest : List Char}
    {members : List (String × Json)}
    (h : Json.firstMember (fuel + 1) depth cs = .ok (members, rest)) :
    ∀ member ∈ members, Written depth member.2 := by
  rw [Json.firstMember] at h
  split at h
  · cases h
  · cases h
    simp
  · exact ih.member h
  · cases h

theorem nextMember_succ (ih : ReadsWritten fuel) {depth : Nat} {cs rest : List Char}
    {members : List (String × Json)}
    (h : Json.nextMember (fuel + 1) depth cs = .ok (members, rest)) :
    ∀ member ∈ members, Written depth member.2 := by
  rw [Json.nextMember] at h
  split at h
  · cases h
  · cases h
    simp
  · split at h
    · cases h
    · exact ih.member h
    · cases h
    · cases h
  · cases h

theorem member_succ (ih : ReadsWritten fuel) {depth : Nat} {cs rest : List Char}
    {members : List (String × Json)} (h : Json.member (fuel + 1) depth cs = .ok (members, rest)) :
    ∀ member ∈ members, Written depth member.2 := by
  rw [Json.member] at h
  split at h
  · cases h
  · split at h
    · cases h
    · split at h
      · cases h
      · next v after hvalue =>
        obtain ⟨⟨more, last⟩, hmore, heq⟩ := map_eq_ok.1 h
        cases heq
        intro other hother
        rcases List.mem_cons.1 hother with rfl | hother
        · exact ih.value hvalue
        · exact ih.nextMember hmore other hother

end ReadsWritten

/-- With any fuel the readers give documents that come from a text. -/
theorem readsWritten (fuel : Nat) : ReadsWritten fuel := by
  induction fuel with
  | zero =>
    constructor <;> intros <;>
      simp_all [value, firstItem, nextItem, firstMember, nextMember, member]
  | succ fuel ih =>
    exact ⟨ih.value_succ, ih.firstItem_succ, ih.nextItem_succ, ih.firstMember_succ,
      ih.nextMember_succ, ih.member_succ⟩

/-- A document that a text holds is nested at most as deep as the reader allows. -/
theorem written_of_parse {text : String} {d : Json} (h : parse text = .ok d) :
    Written maxDepth d := by
  unfold parse at h
  split at h
  · next hdocument =>
    cases h
    unfold document at hdocument
    split at hdocument
    · cases hdocument
    · next hvalue =>
      split at hdocument
      · cases hdocument
        exact (readsWritten _).value hvalue
      · cases hdocument
  · cases h

end CardGate.Json
