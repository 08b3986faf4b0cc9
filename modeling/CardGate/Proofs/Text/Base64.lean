import CardGate.Text.Base64.Lemmas
import CardGate.Text.Utf8.Lemmas

/-!
# The text of base64

The bytes that base64 writes are symbols of its alphabet, and then the padding that fills up the
last group (`encodeBytes_eq`).  All of them are ASCII, so the bytes of the text are those that were
written (`bytes_encode`).  As they are read back, different byte sequences have different texts
(`encode_injective`).

Nothing else is read: what a text stands for is written as that text and no other
(`decode_eq_ok_iff`).  The padding and the spare bits leave no choice, so the values of a group are
those that its bytes are written with (`groupValues_heldBytes`).
-/

namespace CardGate.Base64

/-- Base64 is symbols, and padding at the end that depends on the number of bytes only. -/
theorem encodeBytes_eq (bytes : List UInt8) :
    ∃ values : List Nat, (∀ v ∈ values, v < 64) ∧
      encodeBytes bytes =
        values.map symbol ++ List.replicate ((3 - bytes.length % 3) % 3) pad := by
  fun_induction encodeBytes bytes with
  | case1 => exact ⟨[], List.forall_mem_nil _, rfl⟩
  | case2 a => exact ⟨groupValues [a], fun _ => lt_of_mem_groupValues, rfl⟩
  | case3 a b => exact ⟨groupValues [a, b], fun _ => lt_of_mem_groupValues, rfl⟩
  | case4 a b c rest ih =>
    obtain ⟨values, hsmall, hrest⟩ := ih
    refine ⟨groupValues [a, b, c] ++ values, ?_, ?_⟩
    · exact List.forall_mem_append.2 ⟨fun _ => lt_of_mem_groupValues, hsmall⟩
    · have hlength : (a :: b :: c :: rest).length % 3 = rest.length % 3 := by
        simp only [List.length_cons]
        omega
      rw [hrest, hlength, List.map_append, List.append_assoc]

theorem symbol_lt {v : Nat} (h : v < 64) : (symbol v).toNat < 0x80 := by
  decide +revert

theorem lt_of_mem_encodeBytes {bytes : List UInt8} {b : UInt8} (h : b ∈ encodeBytes bytes) :
    b.toNat < 0x80 := by
  obtain ⟨values, hsmall, hbytes⟩ := encodeBytes_eq bytes
  rw [hbytes] at h
  rcases List.mem_append.1 h with hsymbol | hpad
  · obtain ⟨v, hv, rfl⟩ := List.mem_map.1 hsymbol
    exact symbol_lt (hsmall v hv)
  · rw [List.eq_of_mem_replicate hpad]
    decide

/-- The bytes of a base64 text are those that were written. -/
theorem bytes_encode (bytes : List UInt8) : Utf8.bytes (encode bytes) = encodeBytes bytes := by
  have hascii : ∀ b ∈ encodeBytes bytes, b.toNat < 0x80 := fun b => lt_of_mem_encodeBytes
  rw [Utf8.bytes, encode, String.toList_ofList]
  generalize encodeBytes bytes = written at hascii ⊢
  induction written with
  | nil => rfl
  | cons b rest ih =>
    have hb := Utf8.utf8EncodeChar_one (hascii b List.mem_cons_self)
    have hrest := ih fun b hmem => hascii b (List.mem_cons_of_mem _ hmem)
    rw [Utf8.encode] at hrest ⊢
    rw [List.map_cons, List.flatMap_cons, hb, hrest]
    rfl

/-- A byte sequence is read back from its base64 text. -/
theorem decode_bytes_encode (bytes : List UInt8) :
    decode (Utf8.bytes (encode bytes)) = .ok bytes := by
  rw [bytes_encode, decode_encodeBytes]

/-- Different byte sequences have different texts. -/
theorem encode_injective : Function.Injective encode := by
  intro bytes others h
  have hread := decode_bytes_encode bytes
  rw [h, decode_bytes_encode] at hread
  exact (Except.ok.inj hread).symm

/-! ## The one accepted form -/

theorem all_value?_symbol : ∀ n < 256,
    (value? (UInt8.ofNat n)).all (fun v => v < 64 && symbol v == UInt8.ofNat n) = true := by
  decide +kernel

/-- A byte of the alphabet is the symbol of its value. -/
theorem symbol_of_value? {b : UInt8} {v : Nat} (h : value? b = some v) : v < 64 ∧ symbol v = b := by
  have hall := all_value?_symbol b.toNat b.toNat_lt
  rw [UInt8.ofNat_toNat, h, Option.all_some, Bool.and_eq_true, decide_eq_true_eq,
    beq_iff_eq] at hall
  exact hall

/-- A row that has values is the row of their symbols. -/
theorem eq_map_symbol_of_values {offset : Nat} {bytes : List UInt8} {vs : List Nat}
    (h : values offset bytes = .ok vs) : (∀ v ∈ vs, v < 64) ∧ bytes = vs.map symbol := by
  fun_induction values offset bytes generalizing vs with
  | case1 offset =>
    cases h
    exact ⟨List.forall_mem_nil _, rfl⟩
  | case2 | case3 => cases h
  | case4 offset b rest v hv more hmore ih =>
    cases h
    obtain ⟨hsmall, hrest⟩ := ih hmore
    obtain ⟨hv, hb⟩ := symbol_of_value? hv
    exact ⟨List.forall_mem_cons.2 ⟨hv, hsmall⟩, by rw [List.map_cons, hb, ← hrest]⟩

/-- The values that a group is written with: two to four of them, with no spare bits. -/
structure IsGroup (vs : List Nat) : Prop where
  small : ∀ v ∈ vs, v < 64
  two : 2 ≤ vs.length
  four : vs.length ≤ 4
  spare : spareBits vs = 0

/-- What a group holds is written with its values. -/
theorem groupValues_heldBytes {vs : List Nat} (h : IsGroup vs) :
    groupValues (heldBytes vs) = vs := by
  have toNat {n : Nat} (h : n < 256) : (UInt8.ofNat n).toNat = n := UInt8.toNat_ofNat_of_lt' h
  obtain ⟨hsmall, two, four, spare⟩ := h
  match vs, two, four with
  | [a, b], _, _ =>
    have ha := hsmall a (by simp)
    have hb := hsmall b (by simp)
    have hspare : b % 16 = 0 := spare
    simp only [heldBytes, groupValues]
    rw [toNat (by omega)]
    simp only [List.cons.injEq, and_true]
    omega
  | [a, b, c], _, _ =>
    have ha := hsmall a (by simp)
    have hb := hsmall b (by simp)
    have hc := hsmall c (by simp)
    have hspare : c % 4 = 0 := spare
    simp only [heldBytes, groupValues]
    rw [toNat (by omega), toNat (by omega)]
    simp only [List.cons.injEq, and_true]
    omega
  | [a, b, c, d], _, _ =>
    have ha := hsmall a (by simp)
    have hb := hsmall b (by simp)
    have hc := hsmall c (by simp)
    have hd := hsmall d (by simp)
    simp only [heldBytes, groupValues]
    rw [toNat (by omega), toNat (by omega), toNat (by omega)]
    simp only [List.cons.injEq, and_true]
    omega

/-- What a group holds is written with its symbols, and padding that fills it up. -/
theorem encodeBytes_heldBytes {vs : List Nat} (h : IsGroup vs) :
    encodeBytes (heldBytes vs) = vs.map symbol ++ List.replicate (4 - vs.length) pad := by
  have hvalues := groupValues_heldBytes h
  obtain ⟨-, two, four, -⟩ := h
  match vs, two, four with
  | [a, b], _, _ | [a, b, c], _, _ | [a, b, c, d], _, _ =>
    rw [heldBytes] at hvalues ⊢
    rw [encodeBytes, hvalues]
    rfl

/-- A group of four values needs no padding, so that more can follow. -/
theorem encodeBytes_heldBytes_append {vs : List Nat} (hsmall : ∀ v ∈ vs, v < 64)
    (four : vs.length = 4) (more : List UInt8) :
    encodeBytes (heldBytes vs ++ more) = vs.map symbol ++ encodeBytes more := by
  match vs, four with
  | [a, b, c, d], _ =>
    have hvalues := groupValues_heldBytes ⟨hsmall, by simp, by simp, rfl⟩
    rw [heldBytes] at hvalues ⊢
    rw [List.cons_append, List.cons_append, List.cons_append, List.nil_append, encodeBytes, hvalues]

/-- What is read as a last group is nothing, or the symbols of a group with its padding. -/
theorem isGroup_of_lastGroup {offset : Nat} {group bytes : List UInt8} (four : group.length ≤ 4)
    (h : lastGroup offset group = .ok bytes) :
    group = [] ∧ bytes = [] ∨
      ∃ vs, IsGroup vs ∧ group = vs.map symbol ++ List.replicate (4 - vs.length) pad ∧
        bytes = heldBytes vs := by
  have hcut : group.takeWhile (· != pad) ++ group.dropWhile (· != pad) = group :=
    List.takeWhile_append_dropWhile
  rw [lastGroup] at h
  generalize group.takeWhile (· != pad) = symbols at h hcut
  generalize group.dropWhile (· != pad) = padding at h hcut
  split at h
  · cases h
  next vs hvalues =>
  -- the four faults in the order in which they are looked for
  split at h
  · cases h
  next hpadding =>
  split at h
  · cases h
  next hlone =>
  split at h
  · cases h
  next hfull =>
  split at h
  · cases h
  next hspare =>
  cases h
  obtain ⟨hsmall, rfl⟩ := eq_map_symbol_of_values hvalues
  subst hcut
  rw [List.length_append, List.length_map] at four hfull
  rw [List.length_map] at hpadding hlone
  cases vs with
  | nil =>
    cases padding with
    | nil => exact Or.inl ⟨rfl, rfl⟩
    | cons b padding => exact absurd rfl hpadding
  | cons v vs =>
    have two : 2 ≤ (v :: vs).length := Nat.not_lt.1 fun hone => hlone (decide_eq_true hone)
    have pads : ∀ b ∈ padding, b = pad := by
      refine fun b hb => Decidable.byContradiction fun hother => hpadding ?_
      have hany : padding.any (· != pad) = true := List.any_eq_true.2 ⟨b, hb, bne_iff_ne.2 hother⟩
      have hne : padding.isEmpty = false := List.isEmpty_eq_false_iff.2 (List.ne_nil_of_mem hb)
      rw [hany, hne, Bool.or_true]
      rfl
    have hlength : padding.length = 4 - (v :: vs).length := by omega
    refine Or.inr ⟨v :: vs, ⟨hsmall, two, by omega, Decidable.not_not.1 hspare⟩, ?_, rfl⟩
    rw [← hlength, ← List.eq_replicate_iff.2 ⟨rfl, pads⟩]

theorem eq_encodeBytes_of_lastGroup {offset : Nat} {group bytes : List UInt8}
    (four : group.length ≤ 4) (h : lastGroup offset group = .ok bytes) :
    group = encodeBytes bytes := by
  obtain ⟨rfl, rfl⟩ | ⟨vs, hgroup, rfl, rfl⟩ := isGroup_of_lastGroup four h
  · rfl
  · exact (encodeBytes_heldBytes hgroup).symm

/-- A row that does not begin with five bytes has four at most. -/
theorem length_le_four {group : List UInt8}
    (h : ∀ a b c d e rest, group ≠ a :: b :: c :: d :: e :: rest) : group.length ≤ 4 := by
  match group with
  | [] | [_] | [_, _] | [_, _, _] | [_, _, _, _] => simp
  | a :: b :: c :: d :: e :: rest => exact absurd rfl (h a b c d e rest)

/-- Bytes that are read in groups are the base64 of what they stand for. -/
theorem eq_encodeBytes_of_groups {offset : Nat} {text bytes : List UInt8}
    (h : groups offset text = .ok bytes) : text = encodeBytes bytes := by
  fun_induction groups offset text generalizing bytes with
  | case1 | case2 => cases h
  | case3 offset a b c d e rest vs hvalues more hmore ih =>
    cases h
    obtain ⟨hsmall, hsymbols⟩ := eq_map_symbol_of_values hvalues
    have four : vs.length = 4 := by
      rw [← List.length_map symbol, ← hsymbols]
      rfl
    rw [encodeBytes_heldBytes_append hsmall four, ← hsymbols, ← ih hmore]
    rfl
  | case4 offset group hshort => exact eq_encodeBytes_of_lastGroup (length_le_four hshort) h

/-- The one text that is read as given bytes is the one that is written for them. -/
theorem decode_eq_ok_iff {text bytes : List UInt8} :
    decode text = .ok bytes ↔ text = encodeBytes bytes := by
  constructor
  · intro h
    rw [decode] at h
    split at h
    · cases h
    · exact eq_encodeBytes_of_groups h
  · rintro rfl
    exact decode_encodeBytes bytes

theorem decode_bytes_eq_ok_iff {s : String} {bytes : List UInt8} :
    decode (Utf8.bytes s) = .ok bytes ↔ s = encode bytes := by
  rw [decode_eq_ok_iff, ← bytes_encode]
  constructor
  · intro h
    have hread := Utf8.text?_bytes s
    rw [h, Utf8.text?_bytes] at hread
    exact (Option.some.inj hread).symm
  · rintro rfl
    rfl

end CardGate.Base64
