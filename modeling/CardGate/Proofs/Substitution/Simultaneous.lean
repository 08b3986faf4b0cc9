import CardGate.Proofs.Substitution.PieceByPiece

/-!
# The tokens of a page are replaced at once

A page is read once for its tokens, and then they are replaced one after the other, each one in the
whole page as the ones before it left it.  A card that is put in could form a new token with what
stands around it, or contain one, and a token could begin within another one.

`Payload.Separate` says what rules out all but the first of these, and the first cannot be, by
`TokenFormat.Rewrites.begins_within`.  So the outcome is the same as if each token were replaced
where it stands, by `detokenizeHtml_simultaneous`, in whatever order they come and however often.
-/

namespace CardGate

/-! ## Pages in pieces -/

/-- What a piece of a page is if some tokens stand for cards. -/
def Piece.resolved (card? : String → Option String) : Piece → List Char
  | other c => [c]
  | found cs =>
    match card? (String.ofList cs) with
    | none => cs
    | some card => card.toList

theorem Piece.resolved_eq_text {card? : String → Option String} {piece : Piece}
    (h : ∀ cs, piece = found cs → card? (String.ofList cs) = none) :
    piece.resolved card? = piece.text := by
  cases piece with
  | other c => rfl
  | found cs =>
    simp only [resolved, h cs rfl]
    rfl

namespace Payload

variable {σ : Type} [CardStore σ] {store : σ} {format : TokenFormat} {text : String}

/-- Whether the tokens of a page that stand for cards keep apart from everything else: each occurs
only where it is found as a whole, and their cards are numbers that contain none of them. -/
structure Separate (store : σ) (format : TokenFormat) (text : String) : Prop where
  whole : ∀ token ∈ format.tokensIn text, (CardStore.retrieve store token).isSome = true →
    format.pattern.OccursAsMatch text.toList token.toList
  numbers : ∀ token ∈ format.tokensIn text, ∀ card ∈ CardStore.retrieve store token,
    card.toList ≠ [] ∧ card.toList.all Char.isDigit = true
  free : ∀ token ∈ format.tokensIn text, ∀ card ∈ CardStore.retrieve store token,
    ∀ other ∈ format.tokensIn text, (CardStore.retrieve store other).isSome = true →
      ¬other.toList <:+: card.toList

instance (store : σ) (format : TokenFormat) (text : String) :
    Decidable (Separate store format text) :=
  decidable_of_iff
    ((∀ token ∈ format.tokensIn text, (CardStore.retrieve store token).isSome = true →
        format.pattern.OccursAsMatch text.toList token.toList) ∧
      (∀ token ∈ format.tokensIn text, ∀ card ∈ CardStore.retrieve store token,
        card.toList ≠ [] ∧ card.toList.all Char.isDigit = true) ∧
      ∀ token ∈ format.tokensIn text, ∀ card ∈ CardStore.retrieve store token,
        ∀ other ∈ format.tokensIn text, (CardStore.retrieve store other).isSome = true →
          ¬other.toList <:+: card.toList)
    ⟨fun h => ⟨h.1, h.2.1, h.2.2⟩, fun h => ⟨h.whole, h.numbers, h.free⟩⟩

/-- The cards of the tokens that have been replaced. -/
def cardAmong? (store : σ) (replaced : List String) (token : String) : Option String :=
  if token ∈ replaced then CardStore.retrieve store token else none

/-- The page in which some tokens have been replaced. -/
def pageAmong (store : σ) (format : TokenFormat) (text : String) (replaced : List String) :
    List Char :=
  (format.pattern.cut text.toList).flatMap (Piece.resolved (cardAmong? store replaced))

/-- A page with all tokens that stand for cards replaced where they stand. -/
def restoredPage (store : σ) (format : TokenFormat) (text : String) : String :=
  String.ofList
    ((format.pattern.cut text.toList).flatMap (Piece.resolved (CardStore.retrieve store)))

/-! ## Some tokens -/

theorem Separate.apart (separate : Separate store format text) : Apart store format text where
  whole := separate.whole
  divides token htoken card hcard := by
    obtain ⟨hne, hdigits⟩ := separate.numbers token htoken card hcard
    exact TokenFormat.divides_of_isDigit hne (List.all_eq_true.1 hdigits)

/-- The page in which some tokens have been replaced is the page after they were replaced one after
the other. -/
theorem Separate.pageAmong_eq (separate : Separate store format text) {replaced : List String}
    (found : ∀ token ∈ replaced, token ∈ format.tokensIn text) :
    pageAmong store format text replaced = replacedIn store replaced.reverse text.toList := by
  have hfound : ∀ token ∈ replaced.reverse, token ∈ format.tokensIn text := fun token htoken =>
    found token (List.mem_reverse.1 htoken)
  rw [separate.apart.replacedIn_page hfound]
  apply List.flatMap_congr
  intro piece hpiece
  symm
  by_cases htoken : ∃ token ∈ replaced, ∃ card, CardStore.retrieve store token = some card ∧
      piece = .found token.toList
  · obtain ⟨token, htoken, card, hcard, rfl⟩ := htoken
    simp only [Piece.resolved, String.ofList_toList, cardAmong?, if_pos htoken, hcard]
    exact separate.apart.replacedIn_token hfound (List.mem_reverse.2 htoken) hcard
      fun other hother => separate.free token (found token htoken) card hcard other
        (hfound other hother)
  · have hkept : pieceAfter store replaced.reverse piece = piece.text := by
      apply replacedIn_of_absent
      intro token hmem known hoccurs
      obtain ⟨card, hcard⟩ := Option.isSome_iff_exists.1 known
      have heq := separate.apart.eq_found_of_occurs (hfound token hmem) known hpiece hoccurs
      exact htoken ⟨token, List.mem_reverse.1 hmem, card, hcard, heq⟩
    rw [hkept, Piece.resolved_eq_text]
    rintro cs rfl
    unfold cardAmong?
    split
    · next hmem =>
      rw [Option.eq_none_iff_forall_ne_some]
      intro card hcard
      exact htoken ⟨_, hmem, card, hcard, by rw [String.toList_ofList]⟩
    · rfl

/-- Replacing tokens one after the other. -/
theorem Separate.body_foldl_replaceToken (separate : Separate store format text)
    {tokens replaced : List String} (found : ∀ other ∈ replaced, other ∈ format.tokensIn text)
    (hfound : ∀ token ∈ tokens, token ∈ format.tokensIn text) {page : Payload}
    (hpage : page.body = String.ofList (pageAmong store format text replaced)) :
    (tokens.foldl (replaceToken store) page).body =
      String.ofList (pageAmong store format text (tokens.reverse ++ replaced)) := by
  have hall : ∀ token ∈ tokens.reverse ++ replaced, token ∈ format.tokensIn text :=
    List.forall_mem_append.2 ⟨fun token htoken => hfound token (List.mem_reverse.1 htoken), found⟩
  apply String.toList_injective
  rw [toList_body_foldl, hpage, String.toList_ofList, String.toList_ofList,
    separate.pageAmong_eq found, separate.pageAmong_eq hall, ← replacedIn_append,
    List.reverse_append, List.reverse_reverse]

/-! ## All tokens -/

theorem pageAmong_nil : pageAmong store format text [] = text.toList := by
  have htext : Piece.resolved (cardAmong? store []) = Piece.text := by
    funext piece
    exact Piece.resolved_eq_text fun cs _ => rfl
  rw [pageAmong, htext, Pattern.flatMap_text_cut]

/-- A page in which all of its tokens have been replaced, in any order. -/
theorem pageAmong_tokensIn {replaced : List String}
    (h : ∀ token, token ∈ replaced ↔ token ∈ format.tokensIn text) :
    String.ofList (pageAmong store format text replaced) = restoredPage store format text := by
  unfold pageAmong restoredPage
  congr 1
  apply List.flatMap_congr
  intro piece hpiece
  cases piece with
  | other c => rfl
  | found cs =>
    have hmem : String.ofList cs ∈ replaced := by
      rw [h, TokenFormat.mem_tokensIn_iff, String.toList_ofList]
      exact hpiece
    simp only [Piece.resolved, cardAmong?, if_pos hmem]

/-- A page with no token that stands for a card. -/
theorem restoredPage_of_none
    (h : ∀ token ∈ format.tokensIn text, CardStore.retrieve store token = none) :
    restoredPage store format text = text := by
  have htext : (format.pattern.cut text.toList).flatMap (Piece.resolved (CardStore.retrieve store)) =
      (format.pattern.cut text.toList).flatMap Piece.text := by
    apply List.flatMap_congr
    intro piece hpiece
    apply Piece.resolved_eq_text
    rintro cs rfl
    apply h
    rwa [TokenFormat.mem_tokensIn_iff, String.toList_ofList]
  rw [restoredPage, htext, Pattern.flatMap_text_cut, String.ofList_toList]

/-- Pages are restored as if every token that stands for a card were replaced where it is found, and
all at once. -/
theorem detokenizeHtml_simultaneous (separate : Separate store format text) :
    (detokenizeHtml store format text).body = restoredPage store format text ∧
      ((detokenizeHtml store format text).modified = true ↔
        ∃ token ∈ format.tokensIn text, (CardStore.retrieve store token).isSome = true) ∧
      ((∀ token ∈ format.tokensIn text, CardStore.retrieve store token = none) →
        (detokenizeHtml store format text).body = text) := by
  have hstart : (unchanged text).body = String.ofList (pageAmong store format text []) := by
    rw [pageAmong_nil, String.ofList_toList]
    rfl
  have hbody : (detokenizeHtml store format text).body = restoredPage store format text := by
    have hall := separate.body_foldl_replaceToken
      (fun token htoken => absurd htoken List.not_mem_nil)
      (fun token => List.mem_eraseDups.1) hstart
    rw [detokenizeHtml, hall]
    apply pageAmong_tokensIn
    intro token
    simp
  refine ⟨hbody, ?_, fun hnone => hbody.trans (restoredPage_of_none hnone)⟩
  rw [← Bool.not_eq_false, modified_detokenizeHtml]
  simp only [not_forall, exists_prop, ← ne_eq, Option.isSome_iff_ne_none]

/-- Cards under their tokens as they are. -/
structure Sheet where
  entries : List (String × String)

instance : CardStore Sheet where
  store sheet _ token card := .ok ⟨(token, card) :: sheet.entries⟩
  retrieve sheet token := sheet.entries.lookup token

/-- A store that knows two tagged tokens and a numeric one. -/
def sampleSheet : Sheet :=
  ⟨[("tok_a", "4111111111111111"), ("tok_b=", "5555555555554444"),
    ("9999000000000000", "4999911111111111111")]⟩

/-- A page with a token in two places, one behind another, and one that is not known. -/
def sampleTagged : String := "<p>tok_a/tok_b=tok_a!</p>tok_c"

def sampleNumeric : String := "9999000000000000,9999000000000001;9999000000000000"

theorem detokenizeHtml_sample :
    (Separate sampleSheet .tagged sampleTagged ∧ Separate sampleSheet .numeric sampleNumeric) ∧
      (detokenizeHtml sampleSheet .tagged sampleTagged).body =
        "<p>4111111111111111/55555555555544444111111111111111!</p>tok_c" ∧
      (detokenizeHtml sampleSheet .numeric sampleNumeric).body =
        "4999911111111111111,9999000000000001;4999911111111111111" := by
  have htagged : Separate sampleSheet .tagged sampleTagged := by decide +kernel
  have hnumeric : Separate sampleSheet .numeric sampleNumeric := by decide +kernel
  refine ⟨⟨htagged, hnumeric⟩, ?_, ?_⟩
  · rw [(detokenizeHtml_simultaneous htagged).1]
    decide +kernel
  · rw [(detokenizeHtml_simultaneous hnumeric).1]
    decide +kernel

end Payload

end CardGate
