import CardGate.Card.Display
import CardGate.Card.Record
import Mathlib.Data.List.Find

/-!
# The ends of a card number

What is shown of a card number are its ends and its length.  Two numbers that agree in both cannot
be told apart by anything that the gateway shows: the record without its ciphertext, the mask, the
last four digits and the brand.

The brand is the one part that reads further than it shows: `lead_le` says that no range of a brand
looks behind the first six digits, and with that `SameEnds.brand_eq` carries over.

The last four are computed in three ways: by the place of the fourth character from the end, behind
the stars of the mask, and from the digits of the record.  For every text they are the same
(`lastFour_eq_drop`, `mask_eq_append`, `toList_lastFour_create`).  `shows_ends` is the whole.
-/

namespace CardGate.Card

/-- Numbers of one length that differ at most between the first six digits and the last four. -/
structure SameEnds (card other : List Char) : Prop where
  digits : ∀ c ∈ card, c.isDigit = true
  otherDigits : ∀ c ∈ other, c.isDigit = true
  length : card.length = other.length
  front : card.take 6 = other.take 6
  back : card.reverse.take 4 = other.reverse.take 4

/-! ## The brand -/

/-- A brand is known by six digits at most. -/
theorem lead_le : ∀ entry ∈ brandRanges, entry.2.lead ≤ 6 := by
  decide

variable {card other : List Char}

theorem SameEnds.take_eq (h : SameEnds card other) {count : Nat} (hcount : count ≤ 6) :
    card.take count = other.take count := by
  have hfront := congrArg (List.take count) h.front
  rwa [List.take_take, List.take_take, Nat.min_eq_left hcount] at hfront

theorem SameEnds.contains_eq (h : SameEnds card other) {range : NumberRange}
    (hlead : range.lead ≤ 6) : range.contains card = range.contains other := by
  have hdigits : card.all Char.isDigit = other.all Char.isDigit := by
    rw [List.all_eq_true.2 h.digits, List.all_eq_true.2 h.otherDigits]
  rw [NumberRange.contains, NumberRange.contains, hdigits, h.length, h.take_eq hlead]

theorem SameEnds.brand_eq (h : SameEnds card other) : brand card = brand other := by
  have hfind : (brandRanges.find? fun entry => entry.2.contains card) =
      brandRanges.find? fun entry => entry.2.contains other :=
    List.find?_congr fun entry hentry => h.contains_eq (lead_le entry hentry)
  simp only [brand, stripSeparators_of_digits h.digits, stripSeparators_of_digits h.otherDigits,
    hfind]

/-! ## The last four -/

/-- The fourth character from the end has all but four characters before it. -/
theorem lastFourStart_eq (cs : List Char) : lastFourStart cs = cs.length - 4 := by
  unfold lastFourStart
  by_cases hlong : 3 < cs.length
  · have hindex : cs.zipIdx.reverse[3]? = cs.zipIdx[cs.length - 4]? := by
      rw [List.getElem?_reverse (by rwa [List.length_zipIdx]), List.length_zipIdx]
      congr 1
    have hchar : cs[cs.length - 4]? = some cs[cs.length - 4] :=
      List.getElem?_eq_getElem (by omega)
    rw [hindex, List.getElem?_zipIdx, hchar]
    simp
  · have hnone : cs.zipIdx.reverse[3]? = none := by
      rw [List.getElem?_eq_none_iff, List.length_reverse, List.length_zipIdx]
      omega
    rw [hnone, Option.map_none, Option.getD_none]
    omega

theorem lastFour_eq_drop (cs : List Char) : lastFour cs = cs.drop (cs.length - 4) := by
  rw [lastFour, lastFourStart_eq]

/-- Behind its stars a mask shows the last four. -/
theorem mask_eq_append {cs : List Char} (long : 4 < cs.length) :
    mask cs = List.replicate (cs.length - 4) '*' ++ lastFour cs := by
  rw [mask, if_neg (Nat.not_le.2 long), lastFour_eq_drop]

/-- A record keeps the last four of the digits. -/
theorem toList_lastFour_create (token card : String) (encrypted : Ciphertext) (now : Nat) :
    (CardRecord.create token card encrypted now).lastFour.toList =
      lastFour (stripSeparators card.toList) := by
  rw [lastFour_eq_drop, CardRecord.create, String.toList_ofList]

theorem SameEnds.lastFour_eq (h : SameEnds card other) : lastFour card = lastFour other := by
  have hback : (card.reverse.take 4).reverse = (other.reverse.take 4).reverse := by rw [h.back]
  rwa [List.take_reverse, List.take_reverse, List.reverse_reverse, List.reverse_reverse,
    ← lastFour_eq_drop, ← lastFour_eq_drop] at hback

theorem SameEnds.mask_eq (h : SameEnds card other) : mask card = mask other := by
  by_cases hlong : 4 < card.length
  · rw [mask_eq_append hlong, mask_eq_append (h.length ▸ hlong), h.length, h.lastFour_eq]
  · rw [mask, mask, if_pos (Nat.not_lt.1 hlong), if_pos (h.length ▸ Nat.not_lt.1 hlong), h.length]

theorem lastFour_suffix_mask (long : 4 < card.length) : lastFour card <:+ mask card := by
  rw [mask_eq_append long]
  exact List.suffix_append _ _

/-! ## The whole -/

theorem SameEnds.metadata_eq {card other : String} (h : SameEnds card.toList other.toList)
    (token : String) (encrypted : Ciphertext) (now later : Nat) :
    (CardRecord.create token card encrypted now).metadata =
      (CardRecord.create token other encrypted later).metadata := by
  have hlastFour := h.lastFour_eq
  rw [lastFour_eq_drop, lastFour_eq_drop] at hlastFour
  simp only [CardRecord.create, CardRecord.metadata, stripSeparators_of_digits h.digits,
    stripSeparators_of_digits h.otherDigits, h.brand_eq, hlastFour, h.front]

/-- What is shown of a number of more than four digits is the same for every number with the same
ends, and both the mask and the record end in the last four digits. -/
theorem shows_ends {card other : String} (h : SameEnds card.toList other.toList)
    (long : 4 < card.toList.length) (token : String) (encrypted : Ciphertext) (now later : Nat) :
    (CardRecord.create token card encrypted now).metadata =
        (CardRecord.create token other encrypted later).metadata ∧
      mask card.toList = mask other.toList ∧
      lastFour card.toList = lastFour other.toList ∧
      brand card.toList = brand other.toList ∧
      lastFour card.toList <:+ mask card.toList ∧
      lastFour card.toList <:+ (CardRecord.create token card encrypted now).lastFour.toList := by
  have hrecord :
      (CardRecord.create token card encrypted now).lastFour.toList = lastFour card.toList := by
    rw [toList_lastFour_create, stripSeparators_of_digits h.digits]
  exact ⟨h.metadata_eq token encrypted now later, h.mask_eq, h.lastFour_eq, h.brand_eq,
    lastFour_suffix_mask long, ⟨[], hrecord.symm⟩⟩

/-- Two Visa numbers with the same ends. -/
theorem shows_ends_sample :
    SameEnds "4111111111111111".toList "4111115200831111".toList ∧
      4 < "4111111111111111".toList.length ∧
      (CardRecord.create "tok" "4111111111111111" ⟨[1, 2], "legacy"⟩ 5).metadata =
        (CardRecord.create "tok" "4111115200831111" ⟨[1, 2], "legacy"⟩ 9).metadata ∧
      mask "4111111111111111".toList = mask "4111115200831111".toList ∧
      lastFour "4111111111111111".toList = lastFour "4111115200831111".toList ∧
      brand "4111111111111111".toList = brand "4111115200831111".toList ∧
      lastFour "4111111111111111".toList <:+ mask "4111111111111111".toList ∧
      lastFour "4111111111111111".toList <:+
        (CardRecord.create "tok" "4111111111111111" ⟨[1, 2], "legacy"⟩ 5).lastFour.toList := by
  have hends : SameEnds "4111111111111111".toList "4111115200831111".toList :=
    ⟨List.all_eq_true.1 (by decide), List.all_eq_true.1 (by decide), by decide, by decide,
      by decide⟩
  have hlong : 4 < "4111111111111111".toList.length := by decide
  exact ⟨hends, hlong, shows_ends hends hlong "tok" ⟨[1, 2], "legacy"⟩ 5 9⟩

end CardGate.Card
