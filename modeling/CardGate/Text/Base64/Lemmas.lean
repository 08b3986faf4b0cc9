import CardGate.Text.Base64

/-!
# Reading back base64

`decode_encodeBytes` says that every byte sequence is read back from the text that `encodeBytes`
writes for it.  The steps are those of a single group: its symbols have values below 64, the
values hold the bytes of the group, and the padding fills the last group up.
-/

namespace CardGate.Base64

theorem value?_symbol {v : Nat} (h : v < 64) : value? (symbol v) = some v := by
  decide +revert

theorem symbol_ne_pad {v : Nat} (h : v < 64) : symbol v ≠ pad := by
  decide +revert

theorem values_map_symbol (offset : Nat) (vs : List Nat) (h : ∀ v ∈ vs, v < 64) :
    values offset (vs.map symbol) = .ok vs := by
  induction vs generalizing offset with
  | nil => rfl
  | cons v vs ih =>
    simp only [List.mem_cons, forall_eq_or_imp] at h
    simp [values, value?_symbol h.1, ih (offset + 1) h.2]

theorem lt_of_mem_groupValues {group : List UInt8} {v : Nat} (h : v ∈ groupValues group) :
    v < 64 := by
  unfold groupValues at h
  split at h
  · next a =>
    have := a.toNat_lt
    simp only [List.mem_cons, List.not_mem_nil, or_false] at h
    omega
  · next a b =>
    have := a.toNat_lt
    have := b.toNat_lt
    simp only [List.mem_cons, List.not_mem_nil, or_false] at h
    omega
  · next a b c =>
    have := a.toNat_lt
    have := b.toNat_lt
    have := c.toNat_lt
    simp only [List.mem_cons, List.not_mem_nil, or_false] at h
    omega
  · cases h

theorem ofNat_eq_of_toNat {n : Nat} {b : UInt8} (h : n = b.toNat) : UInt8.ofNat n = b := by
  rw [h, UInt8.ofNat_toNat]

/-- The symbols of a group hold the bytes of the group. -/
theorem heldBytes_groupValues (group : List UInt8) (h : group.length ≤ 3) :
    heldBytes (groupValues group) = group := by
  match group, h with
  | [], _ => rfl
  | [a], _ =>
    have := a.toNat_lt
    simp only [groupValues, heldBytes, List.cons.injEq, and_true]
    exact ofNat_eq_of_toNat (by omega)
  | [a, b], _ =>
    have := a.toNat_lt
    have := b.toNat_lt
    simp only [groupValues, heldBytes, List.cons.injEq, and_true]
    exact ⟨ofNat_eq_of_toNat (by omega), ofNat_eq_of_toNat (by omega)⟩
  | [a, b, c], _ =>
    have := a.toNat_lt
    have := b.toNat_lt
    have := c.toNat_lt
    simp only [groupValues, heldBytes, List.cons.injEq, and_true]
    exact ⟨ofNat_eq_of_toNat (by omega), ofNat_eq_of_toNat (by omega),
      ofNat_eq_of_toNat (by omega)⟩

/-- A last group reads back from its symbols and the padding that fills it up. -/
theorem lastGroup_map_symbol (offset : Nat) (vs : List Nat) (small : ∀ v ∈ vs, v < 64)
    (two : 2 ≤ vs.length) (four : vs.length ≤ 4) (spare : spareBits vs = 0) :
    lastGroup offset (vs.map symbol ++ List.replicate (4 - vs.length) pad) = .ok (heldBytes vs) := by
  have symbols : ∀ b ∈ vs.map symbol, (b != pad) = true := by
    intro b hb
    obtain ⟨v, hv, rfl⟩ := List.mem_map.1 hb
    simpa using symbol_ne_pad (small v hv)
  generalize hpadding : List.replicate (4 - vs.length) pad = padding
  have pads : ∀ b ∈ padding, b = pad := by
    intro b hb
    rw [← hpadding] at hb
    exact List.eq_of_mem_replicate hb
  have full : vs.length + padding.length = 4 := by
    rw [← hpadding, List.length_replicate]
    omega
  have hany : padding.any (· != pad) = false := by simpa using pads
  have hpad : padding.takeWhile (· != pad) = [] ∧ padding.dropWhile (· != pad) = padding := by
    cases padding with
    | nil => simp
    | cons b rest => simp [pads b (by simp)]
  have htake : (vs.map symbol ++ padding).takeWhile (· != pad) = vs.map symbol := by
    rw [List.takeWhile_append_of_pos symbols, hpad.1, List.append_nil]
  have hdrop : (vs.map symbol ++ padding).dropWhile (· != pad) = padding := by
    rw [List.dropWhile_append_of_pos symbols, hpad.2]
  have : ¬vs.length < 2 := by omega
  simp only [lastGroup, htake, hdrop, values_map_symbol offset vs small, hany]
  simp [this, full, spare]

/-- A group of one to three bytes is read back from its symbols and the padding. -/
theorem lastGroup_groupValues (offset : Nat) (group : List UInt8) (one : 1 ≤ group.length)
    (three : group.length ≤ 3) :
    lastGroup offset ((groupValues group).map symbol ++ List.replicate (3 - group.length) pad) =
      .ok group := by
  have hlength : (groupValues group).length = group.length + 1 := by
    match group, one, three with
    | [_], _, _ | [_, _], _, _ | [_, _, _], _, _ => rfl
  have spare : spareBits (groupValues group) = 0 := by
    match group, one, three with
    | [_], _, _ | [_, _], _, _ => simp [groupValues, spareBits]
    | [_, _, _], _, _ => rfl
  have read := lastGroup_map_symbol offset (groupValues group) (fun _ => lt_of_mem_groupValues)
    (by omega) (by omega) spare
  have filled : 4 - (group.length + 1) = 3 - group.length := by omega
  rwa [hlength, filled, heldBytes_groupValues group three] at read

theorem length_encodeBytes (bytes : List UInt8) :
    (encodeBytes bytes).length = (bytes.length + 2) / 3 * 4 := by
  fun_induction encodeBytes bytes with
  | case1 => rfl
  | case2 => simp [groupValues]
  | case3 => simp [groupValues]
  | case4 a b c rest ih =>
    simp only [groupValues, List.length_append, List.length_map, List.length_cons, List.length_nil,
      ih]
    omega

theorem groups_encodeBytes (offset : Nat) (bytes : List UInt8) :
    groups offset (encodeBytes bytes) = .ok bytes := by
  fun_induction encodeBytes bytes generalizing offset with
  | case1 => rfl
  | case2 a => exact lastGroup_groupValues offset [a] (by simp) (by simp)
  | case3 a b => exact lastGroup_groupValues offset [a, b] (by simp) (by simp)
  | case4 a b c rest ih =>
    cases hrest : encodeBytes rest with
    | nil =>
      have hlength := length_encodeBytes rest
      rw [hrest, List.length_nil] at hlength
      have : rest = [] := List.eq_nil_of_length_eq_zero (by omega)
      subst this
      exact lastGroup_groupValues offset [a, b, c] (by simp) (by simp)
    | cons e more =>
      have here := values_map_symbol offset (groupValues [a, b, c]) fun _ => lt_of_mem_groupValues
      have held := heldBytes_groupValues [a, b, c] (by simp)
      have there := ih (offset + 4)
      rw [hrest] at there
      simp only [groupValues, List.map_cons, List.map_nil] at here held ⊢
      simp only [List.cons_append, List.nil_append, groups, here, there, held]

/-- Every byte sequence is read back from its base64. -/
theorem decode_encodeBytes (bytes : List UInt8) : decode (encodeBytes bytes) = .ok bytes := by
  have hlength : (encodeBytes bytes).length % 4 = 0 := by
    rw [length_encodeBytes]
    omega
  have stray : strayByte? (encodeBytes bytes) = none := by
    unfold strayByte?
    split <;> simp [hlength]
  rw [decode, stray, groups_encodeBytes]

end CardGate.Base64
