import CardGate.Proofs.Pattern.Ends
import CardGate.Proofs.Text.Base64
import CardGate.Token.Draw

/-!
# The shape of tokens

`HoldsToken` says without patterns when a text has a token of a format in it, going by its looks, and
`matchesIn_iff_holdsToken` that the pattern of the format finds it then and only then.

Whatever is drawn, a new token of a format begins with its sentinel, and the pattern of the format
finds it: a tagged token goes on with symbols of base64, a numeric one has sixteen digits.
-/

namespace CardGate

open Pattern

namespace TokenFormat

/-! ## Tokens in a text -/

/-- Whether a text has something in it that looks like a token of a format.  A tagged token has a
character after its sentinel; a numeric one has twelve digits there, and no word goes on before or
after it. -/
def HoldsToken : TokenFormat → List Char → Prop
  | tagged, cs => ∃ front c back, isTagChar c = true ∧ cs = front ++ ("tok_".toList ++ c :: back)
  | numeric, cs => ∃ front digits back,
      (digits.length = 12 ∧ ∀ d ∈ digits, d.isDigit = true) ∧
      cs = front ++ ("9999".toList ++ (digits ++ back)) ∧
      (∀ c ∈ front.getLast?, Text.isWordChar c = false) ∧
      ∀ c ∈ back.head?, Text.isWordChar c = false

theorem matchesIn_tagged_iff {cs : List Char} :
    tagged.pattern.matchesIn cs = true ↔ tagged.HoldsToken cs := by
  rw [matchesIn_iff]
  constructor
  · rintro ⟨front, rest, q, rfl, hq⟩
    obtain ⟨afterSentinel, hsentinel, hmore⟩ := mem_ends_row_cons.1 hq
    obtain ⟨afterTag, htag, -⟩ := mem_ends_row_cons.1 hmore
    obtain ⟨afterOne, hone, -⟩ := List.mem_flatMap.1 htag
    obtain ⟨c, hc, hback, -⟩ := mem_ends_one.1 hone
    refine ⟨front, c, afterOne.after, hc, ?_⟩
    rw [← hback, ← (mem_ends_literal.1 hsentinel).1]
  · rintro ⟨front, c, back, hc, rfl⟩
    refine ⟨front, _, ⟨some c, back⟩, rfl, mem_ends_row_cons.2
      ⟨⟨some '_', c :: back⟩, mem_ends_literal.2 ⟨rfl, rfl⟩,
        mem_ends_row_cons.2 ⟨⟨some c, back⟩, ?_, ?_⟩⟩⟩
    · exact List.mem_flatMap.2 ⟨_, mem_ends_one.2 ⟨c, hc, rfl, rfl⟩, mem_ends_many _ _⟩
    · exact mem_ends_many _ _

/-- A numeric token ends behind its digits, if no word goes on before or after it. -/
theorem mem_ends_numeric_iff {p q : Place} :
    q ∈ numeric.pattern.ends p ↔ ∃ digits : List Char,
      (digits.length = 12 ∧ ∀ d ∈ digits, d.isDigit = true) ∧
        (p.after = "9999".toList ++ (digits ++ q.after) ∧
          q.before = digits.getLast?.or (some '9')) ∧
        (∀ c ∈ p.before, Text.isWordChar c = false) ∧
        ∀ c ∈ q.after.head?, Text.isWordChar c = false := by
  have hlast {digits : List Char} (h : digits.length = 12 ∧ ∀ d ∈ digits, d.isDigit = true)
      (before : Option Char) : (digits.getLast?.or before).any Text.isWordChar = true := by
    have hne : digits ≠ [] := List.ne_nil_of_length_eq_add_one h.1
    rw [List.getLast?_eq_some_getLast hne, Option.some_or, Option.any_some]
    exact isWordChar_of_isDigit (h.2 _ (List.getLast_mem hne))
  have hnine (more : List Char) : ("9999".toList ++ more).head?.any Text.isWordChar = true := rfl
  constructor
  · intro h
    obtain ⟨start, hedge, hmore⟩ := mem_ends_row_cons.1 h
    obtain ⟨rfl, hfront⟩ := mem_ends_wordEdge.1 hedge
    obtain ⟨afterSentinel, hsentinel, hmore⟩ := mem_ends_row_cons.1 hmore
    obtain ⟨hstart, hbefore⟩ := mem_ends_literal.1 hsentinel
    obtain ⟨afterDigits, htimes, hmore⟩ := mem_ends_row_cons.1 hmore
    obtain ⟨digits, hdigits, hafter, hend⟩ := mem_ends_times_one.1 htimes
    obtain ⟨stop, hedge, hq⟩ := mem_ends_row_cons.1 hmore
    obtain ⟨rfl, hback⟩ := mem_ends_wordEdge.1 hedge
    rw [mem_ends_row_nil.1 hq]
    rw [hafter] at hstart
    rw [atWordEdge_of_after (hstart ▸ hnine _)] at hfront
    rw [atWordEdge_of_before (hend ▸ hlast hdigits _)] at hback
    exact ⟨digits, hdigits, ⟨hstart, hend.trans (congrArg _ hbefore)⟩, hfront, hback⟩
  · intro h
    obtain ⟨digits, hdigits, ⟨hafter, hbefore⟩, hfront, hback⟩ := h
    have hstart : p.after.head?.any Text.isWordChar = true := hafter ▸ hnine _
    have hstop : q.before.any Text.isWordChar = true := hbefore ▸ hlast hdigits _
    refine mem_ends_row_cons.2 ⟨p, mem_ends_wordEdge.2 ⟨rfl, (atWordEdge_of_after hstart).2 hfront⟩,
      mem_ends_row_cons.2 ⟨⟨some '9', digits ++ q.after⟩, mem_ends_literal.2 ⟨hafter, rfl⟩,
        mem_ends_row_cons.2 ⟨q, mem_ends_times_one.2 ⟨digits, hdigits, rfl, hbefore⟩, ?_⟩⟩⟩
    exact mem_ends_wordEdge.2 ⟨rfl, (atWordEdge_of_before hstop).2 hback⟩

theorem matchesIn_numeric_iff {cs : List Char} :
    numeric.pattern.matchesIn cs = true ↔ numeric.HoldsToken cs := by
  simp only [matchesIn_iff, mem_ends_numeric_iff]
  constructor
  · intro h
    obtain ⟨front, rest, q, rfl, digits, hdigits, ⟨hafter, -⟩, hfront, hback⟩ := h
    exact ⟨front, digits, q.after, hdigits, congrArg (front ++ ·) hafter, hfront, hback⟩
  · intro h
    obtain ⟨front, digits, back, hdigits, rfl, hfront, hback⟩ := h
    exact ⟨front, _, ⟨_, back⟩, rfl, digits, hdigits, ⟨rfl, rfl⟩, hfront, hback⟩

/-- The pattern of a format finds what looks like a token of the format, and nothing else. -/
theorem matchesIn_iff_holdsToken (format : TokenFormat) (cs : List Char) :
    format.pattern.matchesIn cs = true ↔ format.HoldsToken cs := by
  cases format with
  | tagged => exact matchesIn_tagged_iff
  | numeric => exact matchesIn_numeric_iff

end TokenFormat

/-! ## Tagged tokens -/

theorem isTagChar_symbol {v : Nat} (h : v < 64) :
    TokenFormat.isTagChar (Char.ofNat (Base64.symbol v).toNat) = true := by
  decide +revert

/-- A tagged token goes on with 43 symbols after its sentinel, and ends with padding. -/
theorem toList_taggedToken (bytes : Vector UInt8 32) :
    ∃ tags : List Char, tags.length = 43 ∧ (∀ c ∈ tags, TokenFormat.isTagChar c = true) ∧
      (taggedToken bytes).toList = "tok_".toList ++ (tags ++ ['=']) := by
  obtain ⟨values, hsmall, hbytes⟩ := Base64.encodeBytes_eq bytes.toList
  have hlength := Base64.length_encodeBytes bytes.toList
  rw [Vector.length_toList] at hbytes hlength
  refine ⟨values.map fun v => Char.ofNat (Base64.symbol v).toNat, ?_, ?_, ?_⟩
  · rw [hbytes, List.length_append, List.length_map, List.length_replicate] at hlength
    rw [List.length_map]
    omega
  · intro c hc
    obtain ⟨v, hv, rfl⟩ := List.mem_map.1 hc
    exact isTagChar_symbol (hsmall v hv)
  · rw [taggedToken, String.toList_append, Base64.encode, String.toList_ofList, hbytes,
      List.map_append, List.map_map]
    rfl

/-! ## Numeric tokens -/

theorem isDigit_digitChar {d : Nat} (h : d < 10) : (Card.digitChar d).isDigit = true := by
  decide +revert

/-- The digits of a numeric token but for the last. -/
def numericBody (digits : Vector (Fin 10) 11) : List Char :=
  "9999".toList ++ digits.toList.map fun d => Card.digitChar d.val

/-- A numeric token ends with its check digit. -/
theorem numericToken_eq (digits : Vector (Fin 10) 11) :
    (numericToken digits).toList =
      numericBody digits ++ [Card.digitChar ((Card.checkDigit? (numericBody digits)).getD 0)] := by
  rw [numericToken, String.toList_ofList]
  rfl

theorem sentinel_numericToken (digits : Vector (Fin 10) 11) :
    "9999".toList <+: (numericToken digits).toList := by
  rw [numericToken_eq]
  exact (List.prefix_append _ _).trans (List.prefix_append _ _)

theorem isDigit_of_mem_numericBody {digits : Vector (Fin 10) 11} {c : Char}
    (h : c ∈ numericBody digits) : c.isDigit = true := by
  have hsentinel : "9999".toList.all Char.isDigit = true := by decide
  rcases List.mem_append.1 h with hnine | hdrawn
  · exact List.all_eq_true.1 hsentinel c hnine
  · obtain ⟨d, -, rfl⟩ := List.mem_map.1 hdrawn
    exact isDigit_digitChar d.isLt

theorem isDigit_of_mem_numericToken {digits : Vector (Fin 10) 11} {c : Char}
    (h : c ∈ (numericToken digits).toList) : c.isDigit = true := by
  rw [numericToken_eq] at h
  rcases List.mem_append.1 h with hbody | hcheck
  · exact isDigit_of_mem_numericBody hbody
  · rw [List.mem_singleton.1 hcheck]
    exact isDigit_digitChar (Card.getD_checkDigit?_lt _)

/-- A numeric token has twelve digits after its sentinel. -/
theorem toList_numericToken (digits : Vector (Fin 10) 11) :
    ∃ ds : List Char, ds.length = 12 ∧ (∀ d ∈ ds, d.isDigit = true) ∧
      (numericToken digits).toList = "9999".toList ++ ds := by
  let ds := digits.toList.map (fun d => Card.digitChar d.val) ++
    [Card.digitChar ((Card.checkDigit? (numericBody digits)).getD 0)]
  have htoken : (numericToken digits).toList = "9999".toList ++ ds := by
    rw [numericToken_eq]
    exact List.append_assoc _ _ _
  refine ⟨ds, by simp [ds], fun d hd => ?_, htoken⟩
  exact isDigit_of_mem_numericToken (htoken ▸ List.mem_append_right _ hd)

/-! ## Both formats -/

namespace TokenFormat

/-- Every new token carries the sentinel of its format. -/
theorem marks_token (format : TokenFormat) (draw : TokenDraw) :
    format.marks (format.token draw) = true := by
  rw [marks, List.isPrefixOf_iff_prefix]
  cases format with
  | tagged =>
    rw [token, taggedToken, String.toList_append]
    exact List.prefix_append _ _
  | numeric => exact sentinel_numericToken draw.digits

/-- Every new token looks like a token of its format. -/
theorem holdsToken_token (format : TokenFormat) (draw : TokenDraw) :
    format.HoldsToken (format.token draw).toList := by
  cases format with
  | tagged =>
    obtain ⟨tags, hlength, htags, htoken⟩ := toList_taggedToken draw.bytes
    obtain ⟨c, more, rfl⟩ := List.exists_cons_of_length_eq_add_one hlength
    exact ⟨[], c, more ++ ['='], htags c List.mem_cons_self, htoken⟩
  | numeric =>
    obtain ⟨digits, hlength, hdigits, htoken⟩ := toList_numericToken draw.digits
    refine ⟨[], digits, [], ⟨hlength, hdigits⟩, ?_, nofun, nofun⟩
    rw [List.append_nil]
    exact htoken

/-- Every new token is found by the pattern of its format. -/
theorem matchesIn_token (format : TokenFormat) (draw : TokenDraw) :
    format.pattern.matchesIn (format.token draw).toList = true :=
  (format.matchesIn_iff_holdsToken _).2 (format.holdsToken_token draw)

end TokenFormat

end CardGate
