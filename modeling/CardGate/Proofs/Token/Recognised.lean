import CardGate.Proofs.Card.Checksum
import CardGate.Proofs.Card.Coverage
import CardGate.Proofs.Token.Found

/-!
# New tokens pass for tokens, and for nothing else

A new token is, as a text of its own, one match of the pattern of its format (`tokensIn_token`).  A
tagged token is taken to its end because the pattern prefers the longest tag and the longest
padding; a numeric one can only be taken as a whole, for it ends where its digits do.

A numeric token has a correct check digit, so that it passes where card numbers are validated.  But
no brand and no shape of card numbers begins with its sentinel, so nothing takes it for a card
number.  What was drawn can be read back from a token of either format, and so different draws never
give the same token.
-/

namespace CardGate

open Pattern

/-! ## Tokens as texts of their own -/

namespace TokenFormat

/-- The pattern of a format prefers to take a whole token. -/
theorem head?_ends_token (format : TokenFormat) (draw : TokenDraw) :
    ∃ q, (format.pattern.ends (.start (format.token draw).toList)).head? = some q ∧
      q.after = [] := by
  cases format with
  | tagged =>
    obtain ⟨tags, hlength, htags, htoken⟩ := toList_taggedToken draw.bytes
    obtain ⟨c, more, rfl⟩ := List.exists_cons_of_length_eq_add_one hlength
    obtain ⟨hc, hmore⟩ := List.forall_mem_cons.1 htags
    obtain ⟨q, hq, hafter⟩ := @head?_ends_tagged none c hc (more ++ ['='])
    refine ⟨q, ?_, ?_⟩
    · show (tagged.pattern.ends (.start (taggedToken draw.bytes).toList)).head? = some q
      rw [htoken]
      exact hq
    · rw [hafter, List.dropWhile_append_of_pos hmore]
      rfl
  | numeric =>
    obtain ⟨digits, hlength, hdigits, htoken⟩ := toList_numericToken draw.digits
    have hwhole : ⟨digits.getLast?.or (some '9'), []⟩ ∈
        numeric.pattern.ends (.start (numericToken draw.digits).toList) := by
      refine mem_ends_numeric_iff.2 ⟨digits, ⟨hlength, hdigits⟩, ⟨?_, rfl⟩, nofun, nofun⟩
      rw [List.append_nil]
      exact htoken
    obtain ⟨q, hq⟩ := Option.isSome_iff_exists.1 (List.isSome_head?.2 (List.ne_nil_of_mem hwhole))
    refine ⟨q, hq, ?_⟩
    obtain ⟨taken, ⟨htaken, -⟩, ⟨hafter, -⟩, -⟩ := mem_ends_numeric_iff.1 (List.mem_of_head? hq)
    -- Wherever it ends, the pattern takes sixteen characters.
    have hsplit : "9999".toList ++ digits = "9999".toList ++ (taken ++ q.after) :=
      htoken.symm.trans hafter
    have hsame := congrArg List.length (List.append_cancel_left hsplit)
    rw [List.length_append, hlength, htaken] at hsame
    exact List.eq_nil_of_length_eq_zero (by omega)

/-- A token is found in itself once, as a whole. -/
theorem tokensIn_token (format : TokenFormat) (draw : TokenDraw) :
    format.tokensIn (format.token draw) = [format.token draw] := by
  obtain ⟨q, hq, hafter⟩ := format.head?_ends_token draw
  have hne : (format.token draw).toList ≠ [] := by
    intro hnil
    have hmarks := format.marks_token draw
    rw [marks, hnil] at hmarks
    cases format with
    | tagged => cases hmarks
    | numeric => cases hmarks
  rw [tokensIn, findAll, cut_eq_found hne hq hafter]
  show [String.ofList (format.token draw).toList] = _
  rw [String.ofList_toList]

end TokenFormat

/-! ## Tagged tokens -/

theorem isTagChar_ne_pad {c : Char} (h : TokenFormat.isTagChar c = true) : c ≠ '=' := by
  rintro rfl
  cases h

/-- A tagged token has 48 bytes. -/
theorem length_bytes_taggedToken (bytes : Vector UInt8 32) :
    (Utf8.bytes (taggedToken bytes)).length = 48 := by
  have hbytes : Utf8.bytes (taggedToken bytes) =
      Utf8.bytes "tok_" ++ Base64.encodeBytes bytes.toList := by
    rw [← Base64.bytes_encode, Utf8.bytes, taggedToken, String.toList_append, Utf8.encode_append]
    rfl
  rw [hbytes, List.length_append, Base64.length_encodeBytes, Vector.length_toList]
  decide

theorem taggedToken_injective : Function.Injective taggedToken := by
  intro bytes others h
  have hsame := congrArg String.toList h
  rw [taggedToken, taggedToken, String.toList_append, String.toList_append] at hsame
  have hencoded := String.toList_inj.1 (List.append_cancel_left hsame)
  exact Vector.toList_inj.1 (Base64.encode_injective hencoded)

/-! ## Numeric tokens -/

/-- Sixteen digits are few enough for the test, and the last of them is the check digit. -/
theorem isLuhn?_numericToken (digits : Vector (Fin 10) 11) :
    Card.isLuhn? (numericToken digits).toList = some true := by
  have hspaced : ∀ c ∈ numericBody digits, c.isDigit = true ∨ Card.IsSeparator c := fun c hc =>
    Or.inl (isDigit_of_mem_numericBody hc)
  have hlength : (numericToken digits).toList.length = 16 := by
    simp [numericToken_eq, numericBody]
  have hdigits : ∀ c ∈ (numericToken digits).toList, c.isDigit = true :=
    fun _ hc => isDigit_of_mem_numericToken hc
  have hfits : Card.digitSum (numericToken digits).toList < UInt32.size := by
    have hle := Card.digitSum_le hdigits
    rw [hlength] at hle
    exact Nat.lt_of_le_of_lt hle (by decide)
  rw [numericToken_eq] at hfits ⊢
  obtain ⟨check, -, hcheck, hluhn⟩ := Card.isLuhn?_append_digit hspaced
    ⟨'9', List.mem_append_left _ (by decide), rfl⟩
    (isDigit_digitChar (Card.getD_checkDigit?_lt _)) hfits
  rw [hluhn, hcheck, Option.getD_some, decide_eq_true rfl]

theorem looksLikeNumber_numericToken (digits : Vector (Fin 10) 11) :
    Card.looksLikeNumber (numericToken digits) = false :=
  Card.looksLikeNumber_of_nines (fun _ hc => isDigit_of_mem_numericToken hc)
    (sentinel_numericToken digits)

/-- A number with a brand begins with no sentinel, so a numeric token has none. -/
theorem brand_numericToken (digits : Vector (Fin 10) 11) :
    Card.brand (numericToken digits).toList = .unknown := by
  by_contra branded
  have hnone := Card.marks_eq_false_of_brand (fun c hc => isDigit_of_mem_numericToken hc) branded
    .numeric
  have hmarks : TokenFormat.numeric.marks (numericToken digits) = true :=
    TokenFormat.numeric.marks_token ⟨Vector.replicate 32 0, digits⟩
  rw [hmarks] at hnone
  cases hnone

theorem numericToken_injective : Function.Injective numericToken := by
  intro digits others h
  have hsame := congrArg String.toList h
  rw [numericToken_eq, numericToken_eq] at hsame
  have hbody := (List.append_inj' hsame rfl).1
  have hdrawn := List.append_cancel_left hbody
  apply Vector.toList_inj.1
  refine List.map_injective_iff.2 ?_ hdrawn
  intro d e hde
  have hvalue := congrArg Card.digitValue hde
  rw [Card.digitValue_digitChar d.isLt, Card.digitValue_digitChar e.isLt] at hvalue
  exact Fin.ext hvalue

/-! ## Both formats -/

/-- A tagged token as it is told from other texts. -/
structure IsTaggedToken (bytes : Vector UInt8 32) (token : String) : Prop where
  written : token = "tok_" ++ Base64.encode bytes.toList
  /-- The base64 text is the one that is read as the bytes. -/
  read : Base64.decode (Utf8.bytes (Base64.encode bytes.toList)) = .ok bytes.toList
  size : (Utf8.bytes token).length = 48
  /-- Padding stands at the end only. -/
  padded : ∃ front, token.toList = front ++ ['='] ∧ '=' ∉ front
  marked : TokenFormat.tagged.marks token = true
  found : TokenFormat.tagged.tokensIn token = [token]

/-- A numeric token as it is told from other texts, and from card numbers. -/
structure IsNumericToken (token : String) : Prop where
  size : token.toList.length = 16
  digits : ∀ c ∈ token.toList, c.isDigit = true
  marked : TokenFormat.numeric.marks token = true
  checked : Card.isLuhn? token.toList = some true
  found : TokenFormat.numeric.tokensIn token = [token]
  shapeless : Card.looksLikeNumber token = false
  unbranded : Card.brand token.toList = .unknown

theorem isTaggedToken (bytes : Vector UInt8 32) : IsTaggedToken bytes (taggedToken bytes) where
  written := rfl
  read := Base64.decode_bytes_encode bytes.toList
  size := length_bytes_taggedToken bytes
  padded := by
    obtain ⟨tags, -, htags, htoken⟩ := toList_taggedToken bytes
    refine ⟨"tok_".toList ++ tags, by rw [htoken, List.append_assoc], ?_⟩
    intro hpad
    rcases List.mem_append.1 hpad with hsentinel | htag
    · exact absurd hsentinel (by decide)
    · exact isTagChar_ne_pad (htags '=' htag) rfl
  marked := TokenFormat.tagged.marks_token ⟨bytes, Vector.replicate 11 0⟩
  found := TokenFormat.tagged.tokensIn_token ⟨bytes, Vector.replicate 11 0⟩

theorem isNumericToken (digits : Vector (Fin 10) 11) : IsNumericToken (numericToken digits) where
  size := by
    obtain ⟨ds, hlength, -, htoken⟩ := toList_numericToken digits
    rw [htoken, List.length_append, hlength]
    rfl
  digits := fun c hc => isDigit_of_mem_numericToken hc
  marked := TokenFormat.numeric.marks_token ⟨Vector.replicate 32 0, digits⟩
  checked := isLuhn?_numericToken digits
  found := TokenFormat.numeric.tokensIn_token ⟨Vector.replicate 32 0, digits⟩
  shapeless := looksLikeNumber_numericToken digits
  unbranded := brand_numericToken digits

/-- Whatever is drawn, a new token is recognised as one of its format, a numeric one is no card
number although its check digit is correct, and no other draw gives the same token. -/
theorem tokens_recognised :
    (∀ bytes, IsTaggedToken bytes (taggedToken bytes)) ∧ Function.Injective taggedToken ∧
      (∀ digits, IsNumericToken (numericToken digits)) ∧ Function.Injective numericToken :=
  ⟨isTaggedToken, taggedToken_injective, isNumericToken, numericToken_injective⟩

end CardGate
