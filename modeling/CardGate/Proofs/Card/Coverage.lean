import CardGate.Card.Brand
import CardGate.Proofs.Card.Shapes
import CardGate.Proofs.Substitution.Deposit
import Mathlib.Algebra.Group.Nat.Defs

/-!
# Brands and shapes

The ranges of the brands and the shapes of the numbers that are replaced are two tables.  They do
not agree: two ranges of brands, `unrecognised`, are in no shape.  By `looksLikeNumber_iff_of_brand`
these are all that is missing.

`deposit_branded` says what this means for a number that has a brand and stands in a card field.  A
token leaves in its place, and is handed over with it, unless it is in one of the two ranges; then
it leaves as it is.
-/

namespace CardGate

namespace Card

/-! ## Ranges as intervals -/

theorem number_append (front back : List Char) :
    number (front ++ back) = number front * 10 ^ back.length + number back := by
  induction back using List.reverseRecOn with
  | nil => rw [List.append_nil, List.length_nil, Nat.pow_zero, Nat.mul_one]; rfl
  | append_singleton back d ih =>
    rw [← List.append_assoc, number_append_singleton, ih, number_append_singleton,
      List.length_append, List.length_singleton, Nat.pow_succ, Nat.add_mul, Nat.mul_assoc,
      Nat.add_assoc]

theorem number_lt {ds : List Char} (digits : ∀ d ∈ ds, d.isDigit = true) :
    number ds < 10 ^ ds.length := by
  induction ds using List.reverseRecOn with
  | nil => exact Nat.one_pos
  | append_singleton ds d ih =>
    obtain ⟨hds, hd⟩ := List.forall_mem_append.1 digits
    have hlt : digitValue d < 10 := digitValue_lt (hd d (List.mem_singleton.2 rfl))
    have hless := ih hds
    rw [number_append_singleton, List.length_append, List.length_singleton, Nat.pow_succ]
    omega

/-- The numbers of a length in a range are those between two bounds. -/
theorem NumberRange.number_of_contains {range : NumberRange} {cs : List Char}
    (h : range.contains cs = true) :
    range.low * 10 ^ (cs.length - range.lead) ≤ number cs ∧
      number cs < (range.high + 1) * 10 ^ (cs.length - range.lead) := by
  obtain ⟨hdigits, -, hlow, hhigh⟩ := NumberRange.contains_iff.1 h
  have hnumber : number cs = number (cs.take range.lead) * 10 ^ (cs.length - range.lead) +
      number (cs.drop range.lead) := by
    rw [← List.length_drop, ← number_append, List.take_append_drop]
  have hlt : number (cs.drop range.lead) < 10 ^ (cs.length - range.lead) := by
    rw [← List.length_drop]
    exact number_lt fun d hd => hdigits d (List.mem_of_mem_drop hd)
  have hbelow := Nat.mul_le_mul_right (10 ^ (cs.length - range.lead)) hlow
  have habove := Nat.mul_le_mul_right (10 ^ (cs.length - range.lead)) hhigh
  rw [Nat.succ_mul, hnumber]
  omega

/-- Whether the numbers of one range lie apart from those of another. -/
def NumberRange.Apart (range other : NumberRange) : Prop :=
  ∀ n ∈ range.lengths, n ∈ other.lengths →
    (range.high + 1) * 10 ^ (n - range.lead) ≤ other.low * 10 ^ (n - other.lead) ∨
      (other.high + 1) * 10 ^ (n - other.lead) ≤ range.low * 10 ^ (n - range.lead)

instance (range other : NumberRange) : Decidable (range.Apart other) :=
  inferInstanceAs (Decidable (∀ n ∈ range.lengths, n ∈ other.lengths → _))

theorem NumberRange.Apart.contains_eq_false {range other : NumberRange} (h : range.Apart other)
    {cs : List Char} (hcontains : range.contains cs = true) : other.contains cs = false := by
  by_contra hother
  rw [Bool.not_eq_false] at hother
  obtain ⟨hlow, hhigh⟩ := range.number_of_contains hcontains
  obtain ⟨hotherLow, hotherHigh⟩ := other.number_of_contains hother
  have hboth := h cs.length (contains_iff.1 hcontains).2.1 (contains_iff.1 hother).2.1
  omega

/-- Numbers that begin with the sentinel of numeric tokens are in no range that lies apart from
them. -/
theorem NumberRange.contains_eq_false_of_nines {range : NumberRange}
    (h : range.Apart ⟨4, 9999, 9999, range.lengths⟩) {cs : List Char}
    (digits : ∀ c ∈ cs, c.isDigit = true) (hcs : "9999".toList <+: cs) :
    range.contains cs = false := by
  by_contra hcontains
  rw [Bool.not_eq_false] at hcontains
  obtain ⟨more, rfl⟩ := hcs
  have hnines : NumberRange.contains ⟨4, 9999, 9999, range.lengths⟩ ("9999".toList ++ more) = true :=
    contains_iff.2 ⟨digits, (contains_iff.1 hcontains).2.1, Nat.le_refl 9999, Nat.le_refl 9999⟩
  rw [h.contains_eq_false hcontains] at hnines
  cases hnines

/-! ## Numbers with a brand -/

/-- The ranges of the brands that no shape covers. -/
def unrecognised : List NumberRange :=
  [⟨2, 22, 27, [16]⟩, ⟨3, 644, 649, [16]⟩]

/-- A row of digits that has a brand is a number of one of the ranges of the brands. -/
theorem exists_range_of_brand {cs : List Char} (digits : ∀ c ∈ cs, c.isDigit = true)
    (branded : brand cs ≠ .unknown) : ∃ entry ∈ brandRanges, entry.2.contains cs = true := by
  rw [brand, stripSeparators_of_digits digits] at branded
  cases hfind : brandRanges.find? fun entry => entry.2.contains cs with
  | none => exact absurd (by simp only [hfind]) branded
  | some entry =>
    have hcontains := List.find?_some hfind
    exact ⟨entry, List.mem_of_find?_eq_some hfind, hcontains⟩

/-- Every range of a brand is covered by a shape, or is one of those that none covers. -/
theorem covered_or_unrecognised :
    ∀ entry ∈ brandRanges, entry.2 ∈ numberShapes ∨ entry.2 ∈ unrecognised := by
  simp [brandRanges, numberShapes, unrecognised]

/-- No shape of card numbers begins with the sentinel of numeric tokens. -/
theorem looksLikeNumber_of_nines {s : String} (digits : ∀ c ∈ s.toList, c.isDigit = true)
    (hs : "9999".toList <+: s.toList) : looksLikeNumber s = false := by
  have hapart : ∀ range ∈ numberShapes, range.Apart ⟨4, 9999, 9999, range.lengths⟩ := by decide
  rw [← Bool.not_eq_true, looksLikeNumber_iff_of_digits digits]
  intro h
  obtain ⟨range, hrange, hcontains⟩ := h
  rw [NumberRange.contains_eq_false_of_nines (hapart range hrange) digits hs] at hcontains
  cases hcontains

theorem apart_unrecognised : ∀ range ∈ numberShapes, ∀ gap ∈ unrecognised, range.Apart gap := by
  decide

/-- A number with a brand is recognised unless it is in one of the two ranges. -/
theorem looksLikeNumber_iff_of_brand {s : String} (digits : ∀ c ∈ s.toList, c.isDigit = true)
    (branded : brand s.toList ≠ .unknown) :
    looksLikeNumber s = true ↔ ∀ gap ∈ unrecognised, gap.contains s.toList = false := by
  rw [looksLikeNumber_iff_of_digits digits]
  constructor
  · intro h
    obtain ⟨range, hrange, hcontains⟩ := h
    intro gap hgap
    exact (apart_unrecognised range hrange gap hgap).contains_eq_false hcontains
  · intro h
    obtain ⟨entry, hentry, hcontains⟩ := exists_range_of_brand digits branded
    rcases covered_or_unrecognised entry hentry with hcovered | hgap
    · exact ⟨entry.2, hcovered, hcontains⟩
    · rw [h entry.2 hgap] at hcontains
      cases hcontains

/-- A number with a brand begins with neither sentinel. -/
theorem marks_eq_false_of_brand {s : String} (digits : ∀ c ∈ s.toList, c.isDigit = true)
    (branded : brand s.toList ≠ .unknown) (format : TokenFormat) : format.marks s = false := by
  by_contra hmarks
  rw [Bool.not_eq_false, TokenFormat.marks, List.isPrefixOf_iff_prefix] at hmarks
  cases format with
  | tagged =>
    have hletter := digits 't' (hmarks.subset (by decide))
    cases hletter
  | numeric =>
    obtain ⟨entry, hentry, hcontains⟩ := exists_range_of_brand digits branded
    have hapart : ∀ entry ∈ brandRanges, entry.2.Apart ⟨4, 9999, 9999, entry.2.lengths⟩ := by decide
    rw [NumberRange.contains_eq_false_of_nines (hapart entry hentry) digits hmarks] at hcontains
    cases hcontains

end Card

namespace Payload

variable {σ : Type} [CardStore σ]

/-! ## What becomes of a number with a brand -/

/-- A number with a brand is recognised unless it is in one of the ranges that no shape covers, and
never passes for a token.  In a card field, wherever that is, it leaves as the token that is handed
over with it if it is recognised; if it is not, it leaves as it is. -/
theorem deposit_branded (format : TokenFormat) (draws : Nat → TokenDraw)
    (occasions : Nat → Occasion) (store : σ) {text : String} {document : Json}
    (hparse : Json.parse text = .ok document) {holder : List Nat}
    {members : List (String × Json)} {i : Nat} {name s : String}
    (hholder : Json.follow holder document = some (.obj members))
    (hmember : members[i]? = some (name, .str s)) (hname : Card.isFieldName name = true)
    (digits : ∀ c ∈ s.toList, c.isDigit = true) (branded : Card.brand s.toList ≠ .unknown) :
    (Card.looksLikeNumber s = true ↔
        ∀ gap ∈ Card.unrecognised, gap.contains s.toList = false) ∧
      format.marks s = false ∧
      ∃ (payload : Payload) (ledger : Ledger σ) (result : Json),
        deposit format (fun k => format.token (draws k)) occasions store text =
          .ok (payload, ledger) ∧
        Json.parse payload.body = .ok result ∧
        ((∀ gap ∈ Card.unrecognised, gap.contains s.toList = false) →
          ∃ k, Json.follow (holder ++ [i]) result = some (.str (format.token (draws k))) ∧
            ledger.handed[k]? = some ⟨format.token (draws k), s⟩) ∧
        ((∃ gap ∈ Card.unrecognised, gap.contains s.toList = true) →
          Json.follow (holder ++ [i]) result = some (.str s)) := by
  have hrecognised := Card.looksLikeNumber_iff_of_brand digits branded
  have hmarks := Card.marks_eq_false_of_brand digits branded format
  let tokens (k : Nat) : String := format.token (draws k)
  have hswapped : Json.Swapped tokens 0 (Json.cardSites format document) document
      (document.tokenized format tokens 0).1 := Json.swapped_tokenized 0 document
  refine ⟨hrecognised, hmarks, _, _, _, deposit_eq hparse, parse_deposited hparse,
    fun hcovered => ?_, fun hgap => ?_⟩
  · have hsite : ⟨holder ++ [i], s⟩ ∈ Json.cardSites format document :=
      Json.mem_cardSites.2 ⟨holder, members, i, name, rfl, hholder, hmember, hname,
        hrecognised.2 hcovered, hmarks⟩
    obtain ⟨k, hk⟩ := List.mem_iff_getElem?.1 hsite
    have hthere := hswapped.there k _ hk
    rw [Nat.zero_add] at hthere
    refine ⟨k, hthere, ?_⟩
    show (issuesAt tokens 0 (Json.cardSites format document))[k]? = _
    rw [issuesAt, List.getElem?_mapIdx, hk, Option.map_some, Nat.zero_add]
  · have hhere : Json.follow (holder ++ [i]) document = some (.str s) := by
      rw [Json.follow_append, hholder, Option.bind_some, Json.follow, Json.inside,
        List.getElem?_map, hmember]
      rfl
    have helsewhere := hswapped.elsewhere (holder ++ [i]) fun site hsite hpath => ?_
    · rw [hhere, Option.map_some] at helsewhere
      obtain ⟨v, hv, hshell⟩ := Option.map_eq_some_iff.1 helsewhere
      rw [hv, Json.eq_str_of_shell hshell]
    · obtain ⟨parent, others, j, _, hwhere, hparent, hother, -, hlooks, -⟩ :=
        Json.mem_cardSites.1 hsite
      obtain ⟨rfl, hj⟩ := List.append_inj' (hpath.symm.trans hwhere) rfl
      obtain rfl : members = others := Json.obj.inj (Option.some.inj (hholder.symm.trans hparent))
      obtain rfl := List.singleton_inj.1 hj
      obtain rfl : s = site.card :=
        Json.str.inj (congrArg Prod.snd (Option.some.inj (hmember.symm.trans hother)))
      obtain ⟨gap, hgap, hcontains⟩ := hgap
      rw [hrecognised.1 hlooks gap hgap] at hcontains
      cases hcontains

/-- The number of the sample is one with a brand, and it is replaced. -/
theorem deposit_branded_sample :
    ∃ (payload : Payload) (ledger : Ledger (CardVault LegacyCipher)) (result : Json),
      deposit .tagged (fun _ => TokenFormat.tagged.token sampleDraw)
        (fun i => ⟨Vector.replicate 12 0, i⟩) sampleVault sampleText = .ok (payload, ledger) ∧
      Json.parse payload.body = .ok result ∧
      Json.follow [0, 0] result = some (.str (TokenFormat.tagged.token sampleDraw)) ∧
      ∃ k : Nat,
        ledger.handed[k]? = some ⟨TokenFormat.tagged.token sampleDraw, "4111111111111111"⟩ := by
  have hholder : Json.follow [0] sampleOrder = some (.obj [("card", .str "4111111111111111")]) :=
    rfl
  obtain ⟨-, -, payload, ledger, result, hdeposit, hparse, hreplaced, -⟩ := deposit_branded .tagged
    (fun _ => sampleDraw) (fun i => ⟨Vector.replicate 12 0, i⟩) sampleVault parse_sampleText
    hholder (i := 0) rfl (by decide) (List.all_eq_true.1 (by decide)) (by decide)
  obtain ⟨k, htoken, hhanded⟩ := hreplaced (by decide)
  exact ⟨payload, ledger, result, hdeposit, hparse, htoken, k, hhanded⟩

/-- A Mastercard number of the newer range in a card field is sent on as it is, and no store is
handed it. -/
theorem deposit_unrecognised :
    ∃ s : String, (∀ c ∈ s.toList, c.isDigit = true) ∧ Card.brand s.toList = .mastercard ∧
      Card.looksLikeNumber s = false ∧ (∀ format : TokenFormat, format.marks s = false) ∧
      Card.isFieldName "card" = true ∧
      ∀ (σ : Type) [CardStore σ] (format : TokenFormat) (tokens : Nat → String)
        (occasions : Nat → Occasion) (store : σ),
        deposit format tokens occasions store (Json.obj [("card", .str s)]).print =
          .ok (unchanged (Json.obj [("card", .str s)]).print, ⟨store, []⟩) := by
  have hdigits : ∀ c ∈ "2221000000000009".toList, c.isDigit = true :=
    List.all_eq_true.1 (by decide)
  have hmarks (format : TokenFormat) : format.marks "2221000000000009" = false :=
    Card.marks_eq_false_of_brand hdigits (by decide) format
  refine ⟨"2221000000000009", hdigits, by decide, by decide, hmarks, by decide, ?_⟩
  intro σ _ format tokens occasions store
  have hparse : Json.parse (Json.obj [("card", .str "2221000000000009")]).print =
      .ok (.obj [("card", .str "2221000000000009")]) :=
    Json.parse_print (.obj (by decide) (by decide) (List.forall_mem_singleton.2 (.str _)))
  refine deposit_of_cardSites_eq_nil hparse ?_
  cases format with
  | tagged => decide
  | numeric => decide

end Payload

end CardGate
