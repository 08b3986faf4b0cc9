import CardGate.Cipher.Sealing

/-!
# What can be opened

A sealed message is a nonce, a ciphertext and the tag of that ciphertext.  Opening cuts a message
where sealing joined it and compares the tag with the one it should have (`unwrap_parts`), so it
accepts nothing but what sealing makes, and it gives back the one plaintext that this was made of.

`opens_sealings_only` puts this together with the checks that come first: of the length of the key,
whatever the message, and then of the length of the message.

The standard bounds the plaintext of a message at 2^36 - 32 bytes, and a longer one is refused
(`SealingError.sealRefused`).  The functions here know no such bound, so what is said about sealing
is meant of plaintexts within it.
-/

namespace CardGate

namespace Gcm

variable {encrypt : Block → Block} {nonce : Nonce} {ciphertext tagged : List UInt8}

/-- A ciphertext with a tag behind it is opened if the tag is its own. -/
theorem openWith_append (h : tagged.length = tagLength) :
    openWith encrypt nonce (ciphertext ++ tagged) =
      if (tag encrypt nonce ciphertext).toList = tagged then
        some (addStream encrypt nonce ciphertext)
      else none := by
  have hlength : (ciphertext ++ tagged).length - tagLength = ciphertext.length := by
    rw [List.length_append, h, Nat.add_sub_cancel]
  simp only [openWith, hlength, List.take_left, List.drop_left]

/-- Every ciphertext with its tag is what sealing makes of some plaintext. -/
theorem sealWith_addStream (encrypt : Block → Block) (nonce : Nonce) (ciphertext : List UInt8) :
    sealWith encrypt nonce (addStream encrypt nonce ciphertext) =
      ciphertext ++ (tag encrypt nonce ciphertext).toList := by
  rw [sealWith, addStream_addStream]

end Gcm

namespace Sealing

variable {key message body tagged plaintext : List UInt8} {nonce : Gcm.Nonce}

/-! ## The key -/

theorem exists_key_of_length (h : key.length = 32) : ∃ bytes : Aes.Key, key = bytes.toList :=
  ⟨⟨key.toArray, by rw [List.size_toArray, h]⟩, rfl⟩

theorem key?_of_length_ne (h : key.length ≠ 32) : key? key = none :=
  dif_neg h

/-- Nothing is opened under bytes that are no key. -/
theorem exists_key_of_unwrap (h : unwrap key message = .ok plaintext) :
    ∃ bytes : Aes.Key, key = bytes.toList := by
  by_cases hlength : key.length = 32
  · exact exists_key_of_length hlength
  · rw [unwrap, key?_of_length_ne hlength] at h
    cases h

theorem wrap_toList (key : Aes.Key) (nonce : Gcm.Nonce) (plaintext : List UInt8) :
    wrap key.toList nonce plaintext = .ok (wrapUnder key nonce plaintext) := by
  rw [wrap, key?_toList]

/-! ## The parts of a message -/

/-- Twelve bytes and more begin with a nonce. -/
theorem exists_nonce (h : 12 ≤ message.length) :
    ∃ (nonce : Gcm.Nonce) (rest : List UInt8), message = nonce.toList ++ rest := by
  have hsize : (message.take 12).toArray.size = 12 := by
    rw [List.size_toArray, List.length_take, Nat.min_eq_left h]
  refine ⟨⟨(message.take 12).toArray, hsize⟩, message.drop 12, ?_⟩
  exact (List.take_append_drop 12 message).symm

/-- A message that is long enough has a nonce, a ciphertext and a tag. -/
theorem exists_parts (h : overhead ≤ message.length) :
    ∃ (nonce : Gcm.Nonce) (body tagged : List UInt8), tagged.length = Gcm.tagLength ∧
      message = nonce.toList ++ (body ++ tagged) := by
  rw [overhead] at h
  obtain ⟨nonce, rest, rfl⟩ := exists_nonce (by omega : 12 ≤ message.length)
  rw [List.length_append, Vector.length_toList] at h
  refine ⟨nonce, rest.take (rest.length - 16), rest.drop (rest.length - 16), ?_, ?_⟩
  · rw [List.length_drop, Gcm.tagLength]
    omega
  · rw [List.take_append_drop]

/-- A message is opened if its tag is that of its ciphertext under its nonce. -/
theorem unwrap_parts (key : Aes.Key) (nonce : Gcm.Nonce) (body : List UInt8)
    (h : tagged.length = Gcm.tagLength) :
    unwrap key.toList (nonce.toList ++ (body ++ tagged)) =
      if (Gcm.tag (Aes.encrypt key) nonce body).toList = tagged then
        .ok (Gcm.addStream (Aes.encrypt key) nonce body)
      else .error .openRefused := by
  have hlong : overhead ≤ (nonce.toList ++ (body ++ tagged)).length := by
    simp only [List.length_append, Vector.length_toList, h, overhead, Gcm.tagLength]
    omega
  have hnonce : nonceOf (nonce.toList ++ (body ++ tagged)) hlong = nonce := by
    simp [nonceOf, Vector.toList]
  have hrest : (nonce.toList ++ (body ++ tagged)).drop 12 = body ++ tagged :=
    List.drop_left' Vector.length_toList
  rw [unwrap, key?_toList]
  simp only [dif_pos hlong, hnonce, hrest, Gcm.openWith_append h]
  by_cases htag : (Gcm.tag (Aes.encrypt key) nonce body).toList = tagged
  · simp only [if_pos htag]
  · simp only [if_neg htag]

/-- What opens is a sealed message, and it begins with the nonce that it was sealed under. -/
theorem eq_wrapUnder_of_unwrap {key : Aes.Key} (h : unwrap key.toList message = .ok plaintext) :
    ∃ nonce : Gcm.Nonce, nonce.toList = message.take 12 ∧
      message = wrapUnder key nonce plaintext := by
  by_cases hlong : overhead ≤ message.length
  · obtain ⟨nonce, body, tagged, htagged, rfl⟩ := exists_parts hlong
    rw [unwrap_parts key nonce body htagged] at h
    split at h
    · next htag =>
      cases h
      refine ⟨nonce, (List.take_left' Vector.length_toList).symm, ?_⟩
      rw [wrapUnder, Gcm.sealWith_addStream, htag]
    · cases h
  · rw [unwrap, key?_toList] at h
    simp only [dif_neg hlong] at h
    cases h

/-- A message that is long enough is opened, or it is refused for its tag. -/
theorem unwrap_cases (key : Aes.Key) (h : overhead ≤ message.length) :
    (∃ plaintext, unwrap key.toList message = .ok plaintext) ∨
      unwrap key.toList message = .error .openRefused := by
  obtain ⟨nonce, body, tagged, htagged, rfl⟩ := exists_parts h
  rw [unwrap_parts key nonce body htagged]
  split
  · exact Or.inl ⟨_, rfl⟩
  · exact Or.inr rfl

/-- Of the tags that can stand behind a nonce and a ciphertext, one opens. -/
theorem unwrap_of_other_tag {key : Aes.Key} {other : List UInt8}
    (h : unwrap key.toList (body ++ tagged) = .ok plaintext)
    (htagged : tagged.length = Gcm.tagLength) (hother : other.length = Gcm.tagLength)
    (hne : other ≠ tagged) :
    unwrap key.toList (body ++ other) = .error .openRefused := by
  obtain ⟨nonce, -, hmessage⟩ := eq_wrapUnder_of_unwrap h
  have hlength := congrArg List.length hmessage
  rw [length_wrapUnder, List.length_append, htagged, overhead, Gcm.tagLength] at hlength
  obtain ⟨front, rest, rfl⟩ := exists_nonce (by omega : 12 ≤ body.length)
  rw [List.append_assoc] at h ⊢
  rw [unwrap_parts key front rest htagged] at h
  rw [unwrap_parts key front rest hother]
  split at h
  · next htag => rw [if_neg fun hsame => hne (hsame.symm.trans htag)]
  · cases h

/-! ## Sealing and opening -/

/-- What is sealed and what is opened under the bytes of a key. -/
structure OpensSealingsOnly (key : List UInt8) : Prop where
  /-- Every plaintext is sealed under every nonce.  The message begins with the nonce, has 28 bytes
  more than the plaintext, and opens to it. -/
  sealed : key.length = 32 → ∀ (nonce : Gcm.Nonce) (plaintext : List UInt8), ∃ message,
    wrap key nonce plaintext = .ok message ∧ message.take 12 = nonce.toList ∧
      message.length = plaintext.length + 28 ∧ unwrap key message = .ok plaintext
  /-- A message that opens is the sealing of what opens from it, under the nonce that its first
  twelve bytes are. -/
  opened : ∀ message plaintext, unwrap key message = .ok plaintext →
    ∃ nonce : Gcm.Nonce, nonce.toList = message.take 12 ∧ wrap key nonce plaintext = .ok message
  /-- A message with another tag is refused. -/
  altered : ∀ (body tagged other : List UInt8) (plaintext : List UInt8),
    unwrap key (body ++ tagged) = .ok plaintext → tagged.length = 16 → other.length = 16 →
      other ≠ tagged → unwrap key (body ++ other) = .error .openRefused
  /-- So is every message of 28 bytes and more that is no sealing. -/
  refused : key.length = 32 → ∀ message, 28 ≤ message.length →
    (∀ nonce plaintext, wrap key nonce plaintext ≠ .ok message) →
      unwrap key message = .error .openRefused
  tooShort : key.length = 32 → ∀ message, message.length < 28 →
    unwrap key message = .error (.tooShort message.length)
  /-- The length of the key is looked at first. -/
  badKey : key.length ≠ 32 →
    (∀ nonce plaintext, wrap key nonce plaintext = .error (.keyLength key.length)) ∧
      ∀ message, unwrap key message = .error (.keyLength key.length)

/-- Under every key, opening accepts exactly what sealing makes. -/
theorem opens_sealings_only (key : List UInt8) : OpensSealingsOnly key where
  sealed h nonce plaintext := by
    obtain ⟨bytes, rfl⟩ := exists_key_of_length h
    exact ⟨_, wrap_toList bytes nonce plaintext, List.take_left' Vector.length_toList,
      length_wrapUnder bytes nonce plaintext, unwrap_wrapUnder bytes nonce plaintext⟩
  opened message plaintext h := by
    obtain ⟨bytes, rfl⟩ := exists_key_of_unwrap h
    obtain ⟨nonce, hnonce, hmessage⟩ := eq_wrapUnder_of_unwrap h
    exact ⟨nonce, hnonce, hmessage ▸ wrap_toList bytes nonce plaintext⟩
  altered body tagged other plaintext h htagged hother hne := by
    obtain ⟨bytes, rfl⟩ := exists_key_of_unwrap h
    exact unwrap_of_other_tag h htagged hother hne
  refused h message hlong hnone := by
    obtain ⟨bytes, rfl⟩ := exists_key_of_length h
    rcases unwrap_cases bytes hlong with ⟨plaintext, hopen⟩ | hrefused
    · obtain ⟨nonce, -, hmessage⟩ := eq_wrapUnder_of_unwrap hopen
      exact absurd (hmessage ▸ wrap_toList bytes nonce plaintext) (hnone nonce plaintext)
    · exact hrefused
  tooShort h message hshort := by
    obtain ⟨bytes, rfl⟩ := exists_key_of_length h
    rw [unwrap, key?_toList]
    exact dif_neg (Nat.not_le.2 hshort)
  badKey h := by
    constructor
    · intro nonce plaintext
      rw [wrap, key?_of_length_ne h]
    · intro message
      rw [unwrap, key?_of_length_ne h]

end Sealing

end CardGate
