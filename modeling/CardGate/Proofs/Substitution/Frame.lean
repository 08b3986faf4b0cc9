import CardGate.Proofs.Substitution.Simultaneous

/-!
# Nothing but tokens changes in a page

Tokens are found in a page by the pattern of their format, but each one that stands for a card is
replaced wherever its characters occur, be that a match or not.  So more than the matches may change:
a numeric token may be part of a longer run of digits, a tagged one part of another, and with what
stands around it a card may spell a token that is replaced after it (`detokenizeHtml_loses`).

`Payload.Apart` rules this out.  Then what stands between the matches is kept, and so is every match
that stands for no card (`detokenizeHtml_frame`).  The cards are otherwise free: one that contains a
token has that token replaced as well.
-/

namespace CardGate.Payload

variable {σ : Type} [CardStore σ] {store : σ} {format : TokenFormat} {text : String}

/-- What becomes of the tokens of a page that stand for cards. -/
def filling? (store : σ) (format : TokenFormat) (text token : String) : Option String :=
  (CardStore.retrieve store token).map fun _ =>
    String.ofList (replacedIn store (format.tokensIn text).eraseDups token.toList)

theorem Apart.pieceAfter_tokensIn (apart : Apart store format text) {piece : Piece}
    (hpiece : piece ∈ format.pattern.cut text.toList) :
    pieceAfter store (format.tokensIn text).eraseDups piece =
      piece.resolved (filling? store format text) := by
  have found : ∀ token ∈ (format.tokensIn text).eraseDups, token ∈ format.tokensIn text :=
    fun token => List.mem_eraseDups.1
  rcases apart.pieceAfter_cases found hpiece with hkept | ⟨token, rfl, known, -⟩
  · rw [hkept]
    cases piece with
    | other c => rfl
    | found cs =>
      cases hcard : CardStore.retrieve store (String.ofList cs) with
      | none =>
        simp only [Piece.resolved, filling?, hcard, Option.map_none]
        rfl
      | some card =>
        simp only [Piece.resolved, filling?, hcard, Option.map_some, String.toList_ofList]
        exact hkept.symm
  · obtain ⟨card, hcard⟩ := Option.isSome_iff_exists.1 known
    simp only [Piece.resolved, String.ofList_toList, filling?, hcard, Option.map_some,
      String.toList_ofList]
    rfl

/-- In a page whose tokens keep apart, what stands between the matches and the matches that stand for
no card stay as they are and where they are.  Every other match is replaced by a text that depends
on the token only, and is its card unless a token of the page occurs in that. -/
theorem detokenizeHtml_frame (apart : Apart store format text) :
    ∃ fill : String → Option String,
      (detokenizeHtml store format text).body =
        String.ofList ((format.pattern.cut text.toList).flatMap (Piece.resolved fill)) ∧
      (∀ token, fill token = none ↔ CardStore.retrieve store token = none) ∧
      ∀ token ∈ format.tokensIn text, ∀ card ∈ CardStore.retrieve store token,
        (∀ other ∈ format.tokensIn text, (CardStore.retrieve store other).isSome = true →
          ¬other.toList <:+: card.toList) → fill token = some card := by
  refine ⟨filling? store format text, ?_, ?_, ?_⟩
  · apply String.toList_injective
    rw [String.toList_ofList, detokenizeHtml, toList_body_foldl]
    show replacedIn store _ text.toList = _
    rw [apart.replacedIn_page fun token => List.mem_eraseDups.1]
    apply List.flatMap_congr
    intro piece hpiece
    exact apart.pieceAfter_tokensIn hpiece
  · intro token
    exact Option.map_eq_none_iff
  · intro token htoken card hcard free
    have hwhole := apart.replacedIn_token (fun other => List.mem_eraseDups.1)
      (List.mem_eraseDups.2 htoken) hcard fun other hother => free other (List.mem_eraseDups.1 hother)
    rw [filling?, hcard, Option.map_some, hwhole, String.ofList_toList]

/-- A store in which a numeric token stands for another. -/
def linkedSheet : Sheet :=
  ⟨[("9999000000000000", "9999000000000001"), ("9999000000000001", "4111 1111 1111 1111"),
    ("tok_a", "4111-1111"), ("tok_b=", "5555 5555")]⟩

/-- A page with both of these, with a token that is not known, and with more digits than a token
has. -/
def linkedNumeric : String :=
  "9999000000000000/9999000000000002 19999000000000005 9999000000000001"

/-- A page with a token right behind another, and with a sentinel alone. -/
def linkedTagged : String := "<p>tok_a/tok_b=tok_c?tok_</p>"

theorem detokenizeHtml_frame_sample :
    (Apart linkedSheet .numeric linkedNumeric ∧ Apart linkedSheet .tagged linkedTagged) ∧
      (∃ fill : String → Option String,
        (detokenizeHtml linkedSheet .numeric linkedNumeric).body = String.ofList
          ((TokenFormat.numeric.pattern.cut linkedNumeric.toList).flatMap (Piece.resolved fill)) ∧
        fill "9999000000000001" = some "4111 1111 1111 1111" ∧ fill "9999000000000002" = none) ∧
      ∃ fill : String → Option String,
        (detokenizeHtml linkedSheet .tagged linkedTagged).body = String.ofList
          ((TokenFormat.tagged.pattern.cut linkedTagged.toList).flatMap (Piece.resolved fill)) ∧
        fill "tok_a" = some "4111-1111" ∧ fill "tok_c" = none := by
  have hnumeric : Apart linkedSheet .numeric linkedNumeric := by decide +kernel
  have htagged : Apart linkedSheet .tagged linkedTagged := by decide +kernel
  refine ⟨⟨hnumeric, htagged⟩, ?_, ?_⟩
  · obtain ⟨fill, hbody, hnone, hcards⟩ := detokenizeHtml_frame hnumeric
    refine ⟨fill, hbody, ?_, (hnone _).2 (by decide)⟩
    exact hcards _ (by decide +kernel) _ (by decide) (by decide +kernel)
  · obtain ⟨fill, hbody, hnone, hcards⟩ := detokenizeHtml_frame htagged
    refine ⟨fill, hbody, ?_, (hnone _).2 (by decide)⟩
    exact hcards _ (by decide +kernel) _ (by decide) (by decide +kernel)

/-- Whether something that stands outside all matches of a page is gone once its tokens have been
replaced. -/
def Loses (store : σ) (format : TokenFormat) (text stretch : String) : Prop :=
  stretch.toList.map Piece.other <:+: format.pattern.cut text.toList ∧
    ¬stretch.toList <:+: (detokenizeHtml store format text).body.toList

instance (store : σ) (format : TokenFormat) (text stretch : String) :
    Decidable (Loses store format text stretch) :=
  inferInstanceAs (Decidable (_ ∧ _))

/-- Pages that change between their tokens: a token is part of a longer run of digits; a token is part
of another, and its card goes on to spell a third; and a card ends like a token begins, is empty, or
begins like a token goes on. -/
theorem detokenizeHtml_loses :
    Loses (Sheet.mk [("9999000000000000", "4111111111111111")]) .numeric
        "9999000000000000 19999000000000000" " 19999000000000000" ∧
      Loses (Sheet.mk [("tok_b=", "411"), ("tok_tok_b=", "5555"), ("tok_411X", "4111")]) .tagged
        "tok_b= tok_tok_b=X tok_411X" "X " ∧
      Loses (Sheet.mk [("tok_x=", "tok_"), ("tok_y", "4111")]) .tagged "tok_x=y tok_y" "y " ∧
      Loses (Sheet.mk [("tok_b=", ""), ("tok_c", "4111")]) .tagged "ttok_b=ok_c tok_c" "ok_c " ∧
      Loses (Sheet.mk [("tok_b=", "ok_c"), ("tok_c", "4111")]) .tagged "ttok_b= tok_c" "t" := by
  decide +kernel

end CardGate.Payload
