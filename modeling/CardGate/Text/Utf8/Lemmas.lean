import CardGate.Text.Utf8

/-!
# Reading back UTF-8

`units_encode` says that the bytes of a text are read as its characters, without a broken piece.
Hence `text?` and `lossy` both give a string back from its bytes.

`eq_encode_of_units` is the converse: bytes without a broken piece are those of the characters read.
So `text?` accepts the bytes of strings and nothing else, which is `text?_eq_some_iff`.
-/

namespace CardGate.Utf8

/-! ## The characters of a text -/

/-- A continuation byte within its bounds is taken into the character. -/
theorem advance_inside {more n : Nat} {low high : UInt8} {code : Nat}
    (hn : n < 64) (hlow : low.toNat ≤ n + 128) (hhigh : n + 128 ≤ high.toNat) :
    advance (.inside more low high code) (UInt8.ofNat (n + 128)) =
      match more with
      | 0 => ([some (Char.ofNat (code * 64 + n))], .ready)
      | more + 1 => ([], .inside more 0x80 0xBF (code * 64 + n)) := by
  have h : (UInt8.ofNat (n + 128)).toNat = n + 128 := by
    rw [UInt8.toNat_ofNat']
    omega
  have hl : low ≤ UInt8.ofNat (n + 128) := by rw [UInt8.le_iff_toNat_le, h]; exact hlow
  have hh : UInt8.ofNat (n + 128) ≤ high := by rw [UInt8.le_iff_toNat_le, h]; exact hhigh
  cases more <;>
    simp only [advance, hl, hh, decide_true, Bool.and_self, if_true, h, Nat.add_sub_cancel]

theorem unitsFrom_cons (state : State) (b : UInt8) (rest : List UInt8) :
    unitsFrom state (b :: rest) = (advance state b).1 ++ unitsFrom (advance state b).2 rest := by
  simp [unitsFrom]

/-- What the first byte of a character means, by its number. -/
theorem start_ofNat {n : Nat} (h : n < 256) :
    start (UInt8.ofNat n) =
      if n < 0x80 then ([some (Char.ofNat n)], .ready)
      else if n < 0xC2 then ([none], .ready)
      else if n < 0xE0 then ([], .inside 0 0x80 0xBF (n - 0xC0))
      else if n < 0xF0 then
        ([], .inside 1 (if n = 0xE0 then 0xA0 else 0x80) (if n = 0xED then 0x9F else 0xBF)
          (n - 0xE0))
      else if n < 0xF5 then
        ([], .inside 2 (if n = 0xF0 then 0x90 else 0x80) (if n = 0xF4 then 0x8F else 0xBF)
          (n - 0xF0))
      else ([none], .ready) := by
  have hb : (UInt8.ofNat n).toNat = n := by
    rw [UInt8.toNat_ofNat']
    exact Nat.mod_eq_of_lt h
  simp only [start, UInt8.lt_iff_toNat_lt, ← UInt8.toNat_inj, hb, UInt8.reduceToNat]

/-- The bytes of a character are read as that character. -/
theorem unitsFrom_utf8EncodeChar (c : Char) (rest : List UInt8) :
    unitsFrom .ready (String.utf8EncodeChar c ++ rest) = some c :: unitsFrom .ready rest := by
  have valid := c.valid
  simp only [UInt32.isValidChar, Nat.isValidChar] at valid
  have code : ∀ n, n = c.val.toNat → Char.ofNat n = c := by
    rintro n rfl
    exact Char.ofNat_toNat c
  unfold String.utf8EncodeChar
  generalize c.val.toNat = v at *
  simp only
  split
  · simp only [List.cons_append, List.nil_append, unitsFrom_cons, advance.eq_1]
    rw [start_ofNat (by omega), if_pos (by omega), code v rfl]
    rfl
  · split
    · simp only [List.cons_append, List.nil_append, unitsFrom_cons, advance.eq_1]
      rw [start_ofNat (by omega), if_neg (by omega), if_neg (by omega), if_pos (by omega),
        advance_inside (by omega) (by simp) (by simp; omega)]
      simp only
      rw [code _ (by omega)]
      rfl
    · split
      · simp only [List.cons_append, List.nil_append, unitsFrom_cons, advance.eq_1]
        rw [start_ofNat (by omega), if_neg (by omega), if_neg (by omega), if_neg (by omega),
          if_pos (by omega)]
        simp only
        rw [advance_inside (by omega)
          (by simp only [apply_ite UInt8.toNat, UInt8.reduceToNat]; split <;> omega)
          (by simp only [apply_ite UInt8.toNat, UInt8.reduceToNat]; split <;> omega)]
        simp only
        rw [advance_inside (by omega) (by simp) (by simp; omega)]
        simp only
        rw [code _ (by omega)]
        rfl
      · simp only [List.cons_append, List.nil_append, unitsFrom_cons, advance.eq_1]
        rw [start_ofNat (by omega), if_neg (by omega), if_neg (by omega), if_neg (by omega),
          if_neg (by omega), if_pos (by omega)]
        simp only
        rw [advance_inside (by omega)
          (by simp only [apply_ite UInt8.toNat, UInt8.reduceToNat]; split <;> omega)
          (by simp only [apply_ite UInt8.toNat, UInt8.reduceToNat]; split <;> omega)]
        simp only
        rw [advance_inside (by omega) (by simp) (by simp; omega)]
        simp only
        rw [advance_inside (by omega) (by simp) (by simp; omega)]
        simp only
        rw [code _ (by omega)]
        rfl

theorem encode_append (cs ds : List Char) : encode (cs ++ ds) = encode cs ++ encode ds := by
  rw [encode, List.flatMap_append, encode, encode]

/-- The bytes of a text are read as its characters, whatever comes after them. -/
theorem units_encode_append (cs : List Char) (rest : List UInt8) :
    units (encode cs ++ rest) = cs.map some ++ units rest := by
  induction cs with
  | nil => rfl
  | cons c cs ih =>
    rw [encode, List.flatMap_cons, List.append_assoc, units, unitsFrom_utf8EncodeChar,
      List.map_cons, List.cons_append, ← ih]
    rfl

theorem units_encode (cs : List Char) : units (encode cs) = cs.map some := by
  have h := units_encode_append cs []
  rwa [List.append_nil, show units [] = [] from rfl, List.append_nil] at h

/-- Every string is the text of its bytes. -/
theorem text?_bytes (s : String) : text? (bytes s) = some s := by
  simp [text?, bytes, units_encode]

/-- In the bytes of a string nothing has to be replaced. -/
theorem lossy_bytes (s : String) : lossy (bytes s) = s := by
  simp [lossy, bytes, units_encode, Function.comp_def]

/-! ## The bytes of what was read -/

theorem toNat_val_ofNat {n : Nat} (h : n.isValidChar) : (Char.ofNat n).val.toNat = n := by
  rw [Char.ofNat, dif_pos h]
  rfl

theorem ofNat_eq {b : UInt8} {n : Nat} (h : n = b.toNat) : UInt8.ofNat n = b := by
  rw [h, UInt8.ofNat_toNat]

theorem utf8EncodeChar_one {b : UInt8} (h : b.toNat < 0x80) :
    String.utf8EncodeChar (Char.ofNat b.toNat) = [b] := by
  have hvalid : b.toNat.isValidChar := Or.inl (by omega)
  simp only [String.utf8EncodeChar, toNat_val_ofNat hvalid]
  rw [if_pos (by omega), UInt8.ofNat_toNat]

theorem utf8EncodeChar_two {b b2 : UInt8} (h : 0xC2 ≤ b.toNat ∧ b.toNat < 0xE0)
    (h2 : 0x80 ≤ b2.toNat ∧ b2.toNat ≤ 0xBF) :
    String.utf8EncodeChar (Char.ofNat ((b.toNat - 0xC0) * 64 + (b2.toNat - 0x80))) = [b, b2] := by
  generalize hv : (b.toNat - 0xC0) * 64 + (b2.toNat - 0x80) = v
  have hvalid : v.isValidChar := Or.inl (by omega)
  simp only [String.utf8EncodeChar, toNat_val_ofNat hvalid]
  rw [if_neg (by omega), if_pos (by omega), ofNat_eq (b := b) (by omega),
    ofNat_eq (b := b2) (by omega)]

/-- The bounds of the second byte leave out shorter characters and surrogates. -/
theorem utf8EncodeChar_three {b b2 b3 : UInt8} (h : 0xE0 ≤ b.toNat ∧ b.toNat < 0xF0)
    (h2 : (if b.toNat = 0xE0 then 0xA0 else 0x80) ≤ b2.toNat ∧
      b2.toNat ≤ if b.toNat = 0xED then 0x9F else 0xBF)
    (h3 : 0x80 ≤ b3.toNat ∧ b3.toNat ≤ 0xBF) :
    String.utf8EncodeChar (Char.ofNat
      (((b.toNat - 0xE0) * 64 + (b2.toNat - 0x80)) * 64 + (b3.toNat - 0x80))) = [b, b2, b3] := by
  have hlow : 0x80 ≤ b2.toNat ∧ (b.toNat = 0xE0 → 0xA0 ≤ b2.toNat) := by split at h2 <;> omega
  have hhigh : b2.toNat ≤ 0xBF ∧ (b.toNat = 0xED → b2.toNat ≤ 0x9F) := by
    have h2 := h2.2
    split at h2 <;> omega
  clear h2
  generalize hv : ((b.toNat - 0xE0) * 64 + (b2.toNat - 0x80)) * 64 + (b3.toNat - 0x80) = v
  have hvalid : v.isValidChar := by
    rw [Nat.isValidChar]
    omega
  simp only [String.utf8EncodeChar, toNat_val_ofNat hvalid]
  rw [if_neg (by omega), if_neg (by omega), if_pos (by omega), ofNat_eq (b := b) (by omega),
    ofNat_eq (b := b2) (by omega), ofNat_eq (b := b3) (by omega)]

/-- The bounds of the second byte leave out shorter characters and codes that are too large. -/
theorem utf8EncodeChar_four {b b2 b3 b4 : UInt8} (h : 0xF0 ≤ b.toNat ∧ b.toNat < 0xF5)
    (h2 : (if b.toNat = 0xF0 then 0x90 else 0x80) ≤ b2.toNat ∧
      b2.toNat ≤ if b.toNat = 0xF4 then 0x8F else 0xBF)
    (h3 : 0x80 ≤ b3.toNat ∧ b3.toNat ≤ 0xBF) (h4 : 0x80 ≤ b4.toNat ∧ b4.toNat ≤ 0xBF) :
    String.utf8EncodeChar (Char.ofNat
      ((((b.toNat - 0xF0) * 64 + (b2.toNat - 0x80)) * 64 + (b3.toNat - 0x80)) * 64 +
        (b4.toNat - 0x80))) = [b, b2, b3, b4] := by
  have hlow : 0x80 ≤ b2.toNat ∧ (b.toNat = 0xF0 → 0x90 ≤ b2.toNat) := by split at h2 <;> omega
  have hhigh : b2.toNat ≤ 0xBF ∧ (b.toNat = 0xF4 → b2.toNat ≤ 0x8F) := by
    have h2 := h2.2
    split at h2 <;> omega
  clear h2
  generalize hv : (((b.toNat - 0xF0) * 64 + (b2.toNat - 0x80)) * 64 + (b3.toNat - 0x80)) * 64 +
    (b4.toNat - 0x80) = v
  have hvalid : v.isValidChar := by
    rw [Nat.isValidChar]
    omega
  simp only [String.utf8EncodeChar, toNat_val_ofNat hvalid]
  rw [if_neg (by omega), if_neg (by omega), if_neg (by omega), ofNat_eq (b := b) (by omega),
    ofNat_eq (b := b2) (by omega), ofNat_eq (b := b3) (by omega), ofNat_eq (b := b4) (by omega)]

/-- Inside a character that is not broken, the next byte must be within its bounds. -/
theorem unitsFrom_inside {more : Nat} {low high : UInt8} {code : Nat} {bs : List UInt8}
    {us : List (Option Char)} (h : unitsFrom (.inside more low high code) bs = us)
    (unbroken : us.head? ≠ some none) :
    ∃ b rest, bs = b :: rest ∧ (low.toNat ≤ b.toNat ∧ b.toNat ≤ high.toNat) ∧
      match more with
      | 0 => some (Char.ofNat (code * 64 + (b.toNat - 0x80))) :: unitsFrom .ready rest = us
      | more + 1 =>
        unitsFrom (.inside more 0x80 0xBF (code * 64 + (b.toNat - 0x80))) rest = us := by
  cases bs with
  | nil => exact absurd (h ▸ rfl) unbroken
  | cons b rest =>
    rw [unitsFrom_cons] at h
    by_cases hbounds : low ≤ b ∧ b ≤ high
    · refine ⟨b, rest, rfl, by simpa only [UInt8.le_iff_toNat_le] using hbounds, ?_⟩
      cases more <;> simpa [advance, hbounds] using h
    · have hout : (decide (low ≤ b) && decide (b ≤ high)) = false := by simpa using hbounds
      simp only [advance, hout, Bool.false_eq_true, if_false, List.cons_append] at h
      exact absurd (h ▸ rfl) unbroken

/-- What is read begins with the bytes of its first character, if that is not broken. -/
theorem exists_of_unitsFrom {b : UInt8} {bs : List UInt8} {us : List (Option Char)}
    (h : unitsFrom .ready (b :: bs) = us) (unbroken : us.head? ≠ some none) :
    ∃ c rest, b :: bs = String.utf8EncodeChar c ++ rest ∧
      some c :: unitsFrom .ready rest = us := by
  have hnone (units : List (Option Char)) (h : none :: units = us) : False :=
    unbroken (h ▸ rfl)
  have hstart := start_ofNat b.toNat_lt
  rw [UInt8.ofNat_toNat] at hstart
  rw [unitsFrom_cons, advance.eq_1, hstart] at h
  split at h
  · next hb => exact ⟨_, bs, by rw [utf8EncodeChar_one hb]; rfl, h⟩
  split at h
  · exact absurd h (hnone _)
  split at h
  · obtain ⟨b2, rest, rfl, h2, h⟩ := unitsFrom_inside h unbroken
    exact ⟨_, rest, by rw [utf8EncodeChar_two (by omega) h2]; rfl, h⟩
  split at h
  · obtain ⟨b2, bs, rfl, h2, h⟩ := unitsFrom_inside h unbroken
    obtain ⟨b3, rest, rfl, h3, h⟩ := unitsFrom_inside h unbroken
    rw [apply_ite UInt8.toNat, apply_ite UInt8.toNat] at h2
    exact ⟨_, rest, by rw [utf8EncodeChar_three (by omega) h2 h3]; rfl, h⟩
  split at h
  · obtain ⟨b2, bs, rfl, h2, h⟩ := unitsFrom_inside h unbroken
    obtain ⟨b3, bs, rfl, h3, h⟩ := unitsFrom_inside h unbroken
    obtain ⟨b4, rest, rfl, h4, h⟩ := unitsFrom_inside h unbroken
    rw [apply_ite UInt8.toNat, apply_ite UInt8.toNat] at h2
    exact ⟨_, rest, by rw [utf8EncodeChar_four (by omega) h2 h3 h4]; rfl, h⟩
  · exact absurd h (hnone _)

theorem unitsFrom_inside_ne_nil {more : Nat} {low high : UInt8} {code : Nat} (bs : List UInt8) :
    unitsFrom (.inside more low high code) bs ≠ [] := by
  induction bs generalizing more low high code with
  | nil => exact List.cons_ne_nil _ _
  | cons b bs ih =>
    rw [unitsFrom_cons, advance]
    split
    · cases more with
      | zero => exact List.cons_ne_nil _ _
      | succ more => exact ih
    · exact List.cons_ne_nil _ _

/-- Bytes that begin with characters, as they are read, begin with the bytes of these. -/
theorem exists_of_units {bs : List UInt8} {cs : List Char} {us : List (Option Char)}
    (h : units bs = cs.map some ++ us) : ∃ rest, bs = encode cs ++ rest ∧ units rest = us := by
  induction cs generalizing bs with
  | nil => exact ⟨bs, rfl, h⟩
  | cons c cs ih =>
    cases bs with
    | nil => cases h
    | cons b bs =>
      obtain ⟨c', rest, hbytes, hrest⟩ := exists_of_unitsFrom h nofun
      obtain ⟨hc, hmore⟩ := List.cons.inj hrest
      cases hc
      obtain ⟨behind, rfl, hus⟩ := ih hmore
      refine ⟨behind, ?_, hus⟩
      rw [hbytes, encode, encode, List.flatMap_cons, List.append_assoc]

/-- A byte at the start of a character is read at once or begins one. -/
theorem start_cases (b : UInt8) :
    (start b).1 ≠ [] ∨ ∃ more low high code, (start b).2 = .inside more low high code := by
  unfold start
  split
  · exact Or.inl (List.cons_ne_nil _ _)
  · split
    · exact Or.inl (List.cons_ne_nil _ _)
    · split
      · exact Or.inr ⟨_, _, _, _, rfl⟩
      · split
        · exact Or.inr ⟨_, _, _, _, rfl⟩
        · split
          · exact Or.inr ⟨_, _, _, _, rfl⟩
          · exact Or.inl (List.cons_ne_nil _ _)

/-- Every byte shows in what is read, at least as a part of a broken piece. -/
theorem units_eq_nil_iff {bs : List UInt8} : units bs = [] ↔ bs = [] := by
  constructor
  · intro h
    cases bs with
    | nil => rfl
    | cons b bs =>
      rw [units, unitsFrom_cons, advance.eq_1, List.append_eq_nil_iff] at h
      obtain hout | ⟨more, low, high, code, hnext⟩ := start_cases b
      · exact absurd h.1 hout
      · rw [hnext] at h
        exact absurd h.2 (unitsFrom_inside_ne_nil bs)
  · intro h
    rw [h]
    rfl

/-- Bytes that are read without a broken piece are those of the characters read. -/
theorem eq_encode_of_units {bs : List UInt8} {cs : List Char} (h : units bs = cs.map some) :
    bs = encode cs := by
  obtain ⟨rest, rfl, hrest⟩ := exists_of_units (h.trans (List.append_nil _).symm)
  rw [units_eq_nil_iff.1 hrest, List.append_nil]

theorem eq_map_some_of_all {us : List (Option Char)} (h : us.all Option.isSome = true) :
    us = (us.filterMap id).map some := by
  induction us with
  | nil => rfl
  | cons u us ih =>
    rw [List.all_cons, Bool.and_eq_true] at h
    obtain ⟨c, rfl⟩ := Option.isSome_iff_exists.1 h.1
    rw [List.filterMap_cons, id_eq, List.map_cons, ← ih h.2]

/-- Bytes have a text if they are its bytes, and only then. -/
theorem text?_eq_some_iff {bs : List UInt8} {s : String} : text? bs = some s ↔ bs = bytes s := by
  constructor
  · intro h
    rw [text?] at h
    split at h
    · next hall =>
      cases h
      rw [bytes, String.toList_ofList]
      exact eq_encode_of_units (eq_map_some_of_all hall)
    · cases h
  · rintro rfl
    exact text?_bytes s

/-- Where the replacement character does not stand, bytes that are read are those of the text. -/
theorem exists_of_lossy {bs : List UInt8} {cs more : List Char}
    (h : (lossy bs).toList = cs ++ more) (unbroken : '\uFFFD' ∉ cs) :
    ∃ rest, bs = encode cs ++ rest ∧ (lossy rest).toList = more := by
  rw [lossy, String.toList_ofList] at h
  obtain ⟨us, others, hunits, hus, hothers⟩ := List.map_eq_append_iff.1 h
  have hfront : us = cs.map some := by
    clear h hunits
    induction us generalizing cs with
    | nil => rw [← hus]; rfl
    | cons u us ih =>
      rw [List.map_cons] at hus
      subst hus
      rw [List.mem_cons, not_or] at unbroken
      cases u with
      | none => exact absurd rfl unbroken.1
      | some c => exact congrArg (some c :: ·) (ih unbroken.2 rfl)
  obtain ⟨rest, rfl, hrest⟩ := exists_of_units (hfront ▸ hunits)
  refine ⟨rest, rfl, ?_⟩
  rw [lossy, String.toList_ofList, hrest, hothers]

theorem lossy_encode_append (cs : List Char) (rest : List UInt8) :
    (lossy (encode cs ++ rest)).toList = cs ++ (lossy rest).toList := by
  rw [lossy, lossy, String.toList_ofList, String.toList_ofList, units_encode_append,
    List.map_append, List.map_map]
  exact congrArg (· ++ _) (List.map_id cs)

theorem lossy_eq_empty_iff {bs : List UInt8} : lossy bs = "" ↔ bs = [] := by
  rw [lossy, ← String.toList_inj, String.toList_ofList, ← units_eq_nil_iff]
  exact List.map_eq_nil_iff

/-! ## ASCII bytes -/

/-- A byte below 128 is the whole of its character. -/
theorem eq_ofNat_of_mem_utf8EncodeChar {b : UInt8} {c : Char} (hb : b.toNat < 0x80)
    (h : b ∈ String.utf8EncodeChar c) : c = Char.ofNat b.toNat := by
  -- every byte of a longer character is 128 at least
  have hlarge (n : Nat) (hn : 0x80 ≤ n ∧ n < 0x100) : b ≠ UInt8.ofNat n := by
    rintro rfl
    rw [UInt8.toNat_ofNat'] at hb
    omega
  rw [String.utf8EncodeChar] at h
  split at h
  · next hsmall =>
    cases List.mem_singleton.1 h
    rw [UInt8.toNat_ofNat', Nat.mod_eq_of_lt (by omega)]
    exact (Char.ofNat_toNat c).symm
  · simp only [apply_ite (b ∈ ·), List.mem_cons, List.not_mem_nil, or_false] at h
    split at h
    · rcases h with h | h <;> exact absurd h (hlarge _ (by omega))
    · split at h
      · rcases h with h | h | h <;> exact absurd h (hlarge _ (by omega))
      · have hcode := c.val.toNat_lt
        rcases h with h | h | h | h <;> exact absurd h (hlarge _ (by omega))

theorem mem_of_mem_bytes {b : UInt8} {s : String} (hb : b.toNat < 0x80) (h : b ∈ bytes s) :
    Char.ofNat b.toNat ∈ s.toList := by
  obtain ⟨c, hc, hbyte⟩ := List.mem_flatMap.1 h
  exact eq_ofNat_of_mem_utf8EncodeChar hb hbyte ▸ hc

theorem getLast?_of_getLast?_bytes {b : UInt8} {s : String} (hb : b.toNat < 0x80)
    (h : (bytes s).getLast? = some b) : s.toList.getLast? = some (Char.ofNat b.toNat) := by
  rw [bytes, encode] at h
  rcases List.eq_nil_or_concat s.toList with hnil | ⟨cs, c, hcs⟩
  · rw [hnil] at h
    cases h
  · rw [List.concat_eq_append] at hcs
    rw [hcs, List.flatMap_append, List.flatMap_singleton, List.getLast?_append] at h
    rw [hcs, List.getLast?_concat]
    rw [List.getLast?_eq_some_getLast String.utf8EncodeChar_ne_nil, Option.some_or] at h
    have hlast := List.getLast_mem (String.utf8EncodeChar_ne_nil (c := c))
    rw [Option.some.inj h] at hlast
    exact congrArg some (eq_ofNat_of_mem_utf8EncodeChar hb hlast)

/-- Bytes of characters below 128 are cut between the characters. -/
theorem exists_of_prefix_encode {cs : List Char} (ascii : ∀ c ∈ cs, c.toNat < 0x80)
    {front : List UInt8} (h : front <+: encode cs) :
    ∃ chars, chars <+: cs ∧ front = encode chars := by
  induction cs generalizing front with
  | nil => exact ⟨[], List.prefix_rfl, List.prefix_nil.1 h⟩
  | cons c cs ih =>
    obtain ⟨hc, hcs⟩ := List.forall_mem_cons.1 ascii
    have hbyte : (UInt8.ofNat c.toNat).toNat = c.toNat := by
      rw [UInt8.toNat_ofNat']
      omega
    have hone : String.utf8EncodeChar c = [UInt8.ofNat c.toNat] := by
      have hchar := utf8EncodeChar_one (b := UInt8.ofNat c.toNat) (by omega)
      rwa [hbyte, Char.ofNat_toNat] at hchar
    rw [encode, List.flatMap_cons, hone, List.singleton_append] at h
    cases front with
    | nil => exact ⟨[], List.nil_prefix, rfl⟩
    | cons b front =>
      obtain ⟨rfl, hfront⟩ := List.cons_prefix_cons.1 h
      obtain ⟨chars, hchars, rfl⟩ := ih hcs hfront
      refine ⟨c :: chars, List.cons_prefix_cons.2 ⟨rfl, hchars⟩, ?_⟩
      rw [encode, encode, List.flatMap_cons, hone, List.singleton_append]

/-- A character takes at most four bytes. -/
theorem length_bytes_le (s : String) : (bytes s).length ≤ 4 * s.toList.length := by
  rw [bytes, encode]
  induction s.toList with
  | nil => exact Nat.le_refl 0
  | cons c cs ih =>
    have hc : (String.utf8EncodeChar c).length ≤ 4 := by
      rw [String.length_utf8EncodeChar]
      exact c.utf8Size_le_four
    rw [List.flatMap_cons, List.length_append, List.length_cons]
    omega

/-! ## The order of strings -/

theorem cons_ofNat_lt_iff {m n : Nat} {bs cs : List UInt8} (hm : m < 256) (hn : n < 256) :
    UInt8.ofNat m :: bs < UInt8.ofNat n :: cs ↔ m < n ∨ m = n ∧ bs < cs := by
  have heq : UInt8.ofNat m = UInt8.ofNat n ↔ m = n := by
    rw [← UInt8.toNat_inj, UInt8.toNat_ofNat_of_lt' hm, UInt8.toNat_ofNat_of_lt' hn]
  rw [List.cons_lt_cons_iff, UInt8.ofNat_lt_iff_lt hm hn, heq]

/-- The bytes of a smaller character come first, whatever stands behind them. -/
theorem utf8EncodeChar_append_lt {c d : Char} (h : c < d) (more others : List UInt8) :
    String.utf8EncodeChar c ++ more < String.utf8EncodeChar d ++ others := by
  have hlt : c.val.toNat < d.val.toNat := h
  have hvalid := d.valid
  simp only [UInt32.isValidChar, Nat.isValidChar] at hvalid
  have hbound : d.val.toNat < 0x110000 := by omega
  unfold String.utf8EncodeChar
  generalize c.val.toNat = v at hlt
  generalize d.val.toNat = w at hlt hbound
  clear hvalid h
  dsimp only
  split <;> repeat' split
  all_goals try omega
  all_goals simp (disch := omega) only [List.cons_append, List.nil_append, cons_ofNat_lt_iff]
  -- the first byte grows with the number of bytes; if that is the same, the first difference counts
  · exact Or.inl hlt
  · exact Or.inl (by omega)
  · exact Or.inl (by omega)
  · exact Or.inl (by omega)
  · have hparts : v / 64 < w / 64 ∨ v / 64 = w / 64 ∧ v % 64 < w % 64 := by omega
    rcases hparts with h1 | ⟨h1, h2⟩
    · exact Or.inl (by omega)
    · exact Or.inr ⟨by omega, Or.inl (by omega)⟩
  · exact Or.inl (by omega)
  · exact Or.inl (by omega)
  · have hparts : v / 4096 < w / 4096 ∨ v / 4096 = w / 4096 ∧
        (v / 64 < w / 64 ∨ v / 64 = w / 64 ∧ v % 64 < w % 64) := by omega
    rcases hparts with h1 | ⟨h1, h2 | ⟨h2, h3⟩⟩
    · exact Or.inl (by omega)
    · exact Or.inr ⟨by omega, Or.inl (by omega)⟩
    · exact Or.inr ⟨by omega, Or.inr ⟨by omega, Or.inl (by omega)⟩⟩
  · exact Or.inl (by omega)
  · have hparts : v / 262144 < w / 262144 ∨ v / 262144 = w / 262144 ∧
        (v / 4096 < w / 4096 ∨ v / 4096 = w / 4096 ∧
          (v / 64 < w / 64 ∨ v / 64 = w / 64 ∧ v % 64 < w % 64)) := by omega
    rcases hparts with h1 | ⟨h1, h2 | ⟨h2, h3 | ⟨h3, h4⟩⟩⟩
    · exact Or.inl (by omega)
    · exact Or.inr ⟨by omega, Or.inl (by omega)⟩
    · exact Or.inr ⟨by omega, Or.inr ⟨by omega, Or.inl (by omega)⟩⟩
    · exact Or.inr ⟨by omega, Or.inr ⟨by omega, Or.inr ⟨by omega, Or.inl (by omega)⟩⟩⟩

theorem encode_lt {as bs : List Char} (h : as < bs) : encode as < encode bs := by
  induction as generalizing bs with
  | nil =>
    cases bs with
    | nil => exact absurd h (List.lt_irrefl [])
    | cons d bs =>
      have hbytes : encode (d :: bs) ≠ [] :=
        List.append_ne_nil_of_left_ne_nil (String.utf8EncodeChar_ne_nil) _
      obtain ⟨b, rest, hrest⟩ := List.exists_cons_of_ne_nil hbytes
      rw [hrest]
      exact List.nil_lt_cons b rest
  | cons c as ih =>
    cases bs with
    | nil => exact absurd h (List.not_lt_nil (c :: as))
    | cons d bs =>
      rw [encode, encode, List.flatMap_cons, List.flatMap_cons]
      rcases List.cons_lt_cons_iff.1 h with hchar | ⟨rfl, hrest⟩
      · exact utf8EncodeChar_append_lt hchar _ _
      · exact List.append_left_lt (ih hrest)

/-- Strings are ordered as their bytes are. -/
theorem bytes_lt {a b : String} (h : a < b) : bytes a < bytes b :=
  encode_lt h

end CardGate.Utf8
