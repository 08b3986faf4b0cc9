import CardGate.Keys.Material
import CardGate.Proofs.Text.Base64

/-!
# The text of a key

A key is configured as base64, with blanks around it.  `one_text_form` says that every key has one
text, that no other text is a key, and that what is no key is refused as one.
-/

namespace CardGate.KeyMaterial

theorem ofBytes_eq_ok_iff {bytes : List UInt8} {key : KeyMaterial} :
    ofBytes bytes = .ok key ↔ bytes = key.toList := by
  constructor
  · intro h
    rw [ofBytes, Sealing.key?] at h
    by_cases hlength : bytes.length = 32
    · rw [dif_pos hlength] at h
      cases h
      rfl
    · rw [dif_neg hlength] at h
      cases h
  · rintro rfl
    rw [ofBytes, toList, Sealing.key?_toList]

/-- Bytes are a key if there are 32. -/
theorem exists_toList_eq_iff {bytes : List UInt8} :
    (∃ key : KeyMaterial, key.toList = bytes) ↔ bytes.length = 32 := by
  constructor
  · rintro ⟨key, rfl⟩
    exact Vector.length_toList
  · intro h
    exact ⟨⟨⟨bytes.toArray, by rw [List.size_toArray, h]⟩⟩, rfl⟩

theorem ofBase64_eq_ok_iff {s : String} {key : KeyMaterial} :
    ofBase64 s = .ok key ↔ Text.trimmed s = Base64.encode key.toList := by
  rw [← Base64.decode_bytes_eq_ok_iff, Utf8.bytes, Text.trimmed, String.toList_ofList, ofBase64]
  split
  · next bytes hread =>
    rw [hread, ofBytes_eq_ok_iff, Except.ok.injEq]
  · next fault hread =>
    rw [hread]
    simp only [reduceCtorEq]

/-- What is no key is refused as one, whatever is wrong with it. -/
theorem ofBase64_cases (s : String) :
    (∃ key, ofBase64 s = .ok key) ∨ ∃ fault, ofBase64 s = .error (.invalidKey fault) := by
  rw [ofBase64]
  split
  · next bytes hread =>
    rw [ofBytes]
    split
    · next key hkey => exact Or.inl ⟨⟨key⟩, rfl⟩
    · exact Or.inr ⟨.size bytes.length, rfl⟩
  · next fault hread => exact Or.inr ⟨.encoding fault, rfl⟩

/-- A text is a key if, apart from the blanks around it, it is the base64 of 32 bytes, and then it
is the key of these bytes.  Every other text is an invalid key. -/
theorem one_text_form (s : String) :
    (∀ key, ofBase64 s = .ok key ↔ Text.trimmed s = Base64.encode key.toList) ∧
      ((∃ key, ofBase64 s = .ok key) ↔
        ∃ bytes : List UInt8, bytes.length = 32 ∧ Text.trimmed s = Base64.encode bytes) ∧
      ((∃ fault, ofBase64 s = .error (.invalidKey fault)) ↔
        ¬∃ bytes : List UInt8, bytes.length = 32 ∧ Text.trimmed s = Base64.encode bytes) := by
  have hkeys : (∃ key, ofBase64 s = .ok key) ↔
      ∃ bytes : List UInt8, bytes.length = 32 ∧ Text.trimmed s = Base64.encode bytes := by
    constructor
    · rintro ⟨key, hkey⟩
      exact ⟨key.toList, exists_toList_eq_iff.1 ⟨key, rfl⟩, ofBase64_eq_ok_iff.1 hkey⟩
    · rintro ⟨bytes, hlength, htext⟩
      obtain ⟨key, rfl⟩ := exists_toList_eq_iff.2 hlength
      exact ⟨key, ofBase64_eq_ok_iff.2 htext⟩
  refine ⟨fun key => ofBase64_eq_ok_iff, hkeys, ?_⟩
  rw [← hkeys]
  constructor
  · rintro ⟨fault, hfault⟩ ⟨key, hkey⟩
    rw [hfault] at hkey
    cases hkey
  · exact (ofBase64_cases s).resolve_left

end CardGate.KeyMaterial
