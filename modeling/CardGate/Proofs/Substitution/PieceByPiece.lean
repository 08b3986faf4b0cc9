import CardGate.Proofs.Substitution.Passing
import CardGate.Proofs.Token.Rewritten
import Mathlib.Data.List.Induction
import Mathlib.Data.List.Infix

/-!
# Replacing tokens piece by piece

Tokens are found in a page by the pattern of their format, but each one that stands for a card is
replaced wherever its characters occur in the whole page.  `Payload.Apart` says when these are the
same places as the matches, and when a card that is put in does not take part in new ones.

Then what happens to the page happens to each of its pieces for itself (`Apart.replacedIn_page`),
since no token goes on behind the piece it begins in.  A piece that changes is a token that stands
for a card (`Apart.pieceAfter_cases`), and if no token of the page occurs in the card, the card is
what it becomes (`Apart.replacedIn_token`).

The induction is on the tokens from the last one on.
-/

namespace CardGate.Payload

variable {σ : Type} [CardStore σ] {store : σ} {format : TokenFormat} {text : String}

/-! ## Replacing in characters -/

/-- Some characters with a token replaced in them, if it stands for a card. -/
def replacedOnce (store : σ) (cs : List Char) (token : String) : List Char :=
  match CardStore.retrieve store token with
  | none => cs
  | some card => Text.replaceWord token.toList card.toList cs

/-- Some characters with tokens replaced in them, one after the other. -/
def replacedIn (store : σ) (tokens : List String) (cs : List Char) : List Char :=
  tokens.foldl (replacedOnce store) cs

theorem replacedIn_append (tokens more : List String) (cs : List Char) :
    replacedIn store (tokens ++ more) cs = replacedIn store more (replacedIn store tokens cs) :=
  List.foldl_append

theorem toList_body_foldl (tokens : List String) (page : Payload) :
    (tokens.foldl (replaceToken store) page).body.toList =
      replacedIn store tokens page.body.toList := by
  induction tokens generalizing page with
  | nil => rfl
  | cons token tokens ih =>
    have hfirst : (replaceToken store page token).body.toList =
        replacedOnce store page.body.toList token := by
      unfold replaceToken replacedOnce
      cases CardStore.retrieve store token with
      | none => rfl
      | some card => exact String.toList_ofList
    rw [List.foldl_cons, ih, hfirst]
    rfl

/-- Characters in which no token occurs that stands for a card. -/
theorem replacedOnce_of_absent {token : String} {cs : List Char}
    (h : (CardStore.retrieve store token).isSome = true → ¬token.toList <:+: cs) :
    replacedOnce store cs token = cs := by
  unfold replacedOnce
  split
  · rfl
  · next card hcard =>
    rw [hcard] at h
    exact Text.replaceWord_of_absent (h rfl) card.toList

theorem replacedIn_of_absent {tokens : List String} {cs : List Char}
    (h : ∀ token ∈ tokens, (CardStore.retrieve store token).isSome = true → ¬token.toList <:+: cs) :
    replacedIn store tokens cs = cs := by
  induction tokens with
  | nil => rfl
  | cons token tokens ih =>
    obtain ⟨hfirst, hmore⟩ := List.forall_mem_cons.1 h
    show replacedIn store tokens (replacedOnce store cs token) = cs
    rw [replacedOnce_of_absent hfirst]
    exact ih hmore

/-! ## Piece by piece -/

/-- Whether the tokens of a page that stand for cards keep apart from the rest of it: each occurs only
where it is found as a whole, and their cards divide what stands around them. -/
structure Apart (store : σ) (format : TokenFormat) (text : String) : Prop where
  whole : ∀ token ∈ format.tokensIn text, (CardStore.retrieve store token).isSome = true →
    format.pattern.OccursAsMatch text.toList token.toList
  divides : ∀ token ∈ format.tokensIn text, ∀ card ∈ CardStore.retrieve store token,
    format.Divides card.toList

instance (store : σ) (format : TokenFormat) (text : String) :
    Decidable (Apart store format text) :=
  decidable_of_iff
    ((∀ token ∈ format.tokensIn text, (CardStore.retrieve store token).isSome = true →
        format.pattern.OccursAsMatch text.toList token.toList) ∧
      ∀ token ∈ format.tokensIn text, ∀ card ∈ CardStore.retrieve store token,
        format.Divides card.toList)
    ⟨fun h => ⟨h.1, h.2⟩, fun h => ⟨h.whole, h.divides⟩⟩

/-- A piece in which a token that stands for a card occurs is that token. -/
theorem Apart.eq_found_of_occurs (apart : Apart store format text) {token : String}
    (htoken : token ∈ format.tokensIn text) (known : (CardStore.retrieve store token).isSome = true)
    {piece : Piece} (hpiece : piece ∈ format.pattern.cut text.toList)
    (hoccurs : token.toList <:+: piece.text) : piece = .found token.toList :=
  (apart.whole token htoken known).eq_found_of_occurs
    (Pattern.text_ne_nil_of_mem_cut (TokenFormat.mem_tokensIn_iff.1 htoken)) hpiece hoccurs

/-- What a piece of a page is once tokens have been replaced in it. -/
def pieceAfter (store : σ) (tokens : List String) (piece : Piece) : List Char :=
  replacedIn store tokens piece.text

theorem pieceAfter_concat (tokens : List String) (token : String) (piece : Piece) :
    pieceAfter store (tokens ++ [token]) piece =
      replacedOnce store (pieceAfter store tokens piece) token :=
  replacedIn_append tokens [token] piece.text

section

variable {tokens : List String}

/-- A piece in which tokens are replaced stays as it was or is a token that stands for a card, and
then divides what stands around it. -/
theorem Apart.pieceAfter_cases (apart : Apart store format text)
    (found : ∀ token ∈ tokens, token ∈ format.tokensIn text) {piece : Piece}
    (hpiece : piece ∈ format.pattern.cut text.toList) :
    pieceAfter store tokens piece = piece.text ∨ ∃ token : String, piece = .found token.toList ∧
      (CardStore.retrieve store token).isSome = true ∧
        format.Divides (pieceAfter store tokens piece) := by
  induction tokens using List.reverseRecOn with
  | nil => exact Or.inl rfl
  | append_singleton tokens token ih =>
    have htoken : token ∈ format.tokensIn text := found token (by simp)
    have hmatch := TokenFormat.mem_tokensIn_iff.1 htoken
    have hbefore := ih fun other hother => found other (List.mem_append_left _ hother)
    rw [pieceAfter_concat, replacedOnce]
    split
    · exact hbefore
    · next card hcard =>
      have known : (CardStore.retrieve store token).isSome = true := by
        rw [hcard]
        rfl
      rcases hbefore with hkept | ⟨other, rfl, hknown, hdivides⟩
      · rw [hkept]
        by_cases hoccurs : token.toList <:+: piece.text
        · have heq := apart.eq_found_of_occurs htoken known hpiece hoccurs
          right
          refine ⟨token, heq, known, ?_⟩
          have hcardView : Text.replaceWord token.toList card.toList piece.text = card.toList := by
            rw [heq]
            exact Text.replaceWord_self (Pattern.text_ne_nil_of_mem_cut hmatch) card.toList
          rw [hcardView]
          exact apart.divides token htoken card hcard
        · left
          exact Text.replaceWord_of_absent hoccurs card.toList
      · right
        exact ⟨other, rfl, hknown, hdivides.replaceWord (Pattern.spells_of_mem_cut hmatch) card.toList⟩

theorem Apart.rewrites (apart : Apart store format text)
    (found : ∀ token ∈ tokens, token ∈ format.tokensIn text) :
    format.Rewrites (pieceAfter store tokens) (format.pattern.cut text.toList) := by
  intro piece hpiece
  rcases apart.pieceAfter_cases found hpiece with hkept | ⟨token, hfound, -, hdivides⟩
  · exact Or.inl hkept
  · exact Or.inr ⟨token.toList, hfound, hdivides⟩

/-- Replacing tokens in a page is replacing them in each of its pieces. -/
theorem Apart.replacedIn_page (apart : Apart store format text)
    (found : ∀ token ∈ tokens, token ∈ format.tokensIn text) :
    replacedIn store tokens text.toList =
      (format.pattern.cut text.toList).flatMap (pieceAfter store tokens) := by
  induction tokens using List.reverseRecOn with
  | nil => exact (format.pattern.flatMap_text_cut text.toList).symm
  | append_singleton tokens token ih =>
    have htoken : token ∈ format.tokensIn text := found token (by simp)
    have hbefore : ∀ other ∈ tokens, other ∈ format.tokensIn text := fun other hother =>
      found other (List.mem_append_left _ hother)
    rw [funext (pieceAfter_concat tokens token), replacedIn_append, ih hbefore]
    show replacedOnce store _ token = _
    unfold replacedOnce
    cases hcard : CardStore.retrieve store token with
    | none => rfl
    | some card =>
      have whole := apart.whole token htoken (by rw [hcard]; rfl)
      exact Text.replaceWord_flatMap card.toList fun _ _ _ hcut _ _ hview hne hbegins =>
        (apart.rewrites hbefore).begins_within (TokenFormat.mem_tokensIn_iff.1 htoken) whole hcut
          hview hne hbegins

/-- A token becomes its card if none of the tokens that are replaced occurs in that. -/
theorem Apart.replacedIn_token (apart : Apart store format text)
    (found : ∀ token ∈ tokens, token ∈ format.tokensIn text) {token card : String}
    (htoken : token ∈ tokens) (hcard : CardStore.retrieve store token = some card)
    (free : ∀ other ∈ tokens, (CardStore.retrieve store other).isSome = true →
      ¬other.toList <:+: card.toList) :
    replacedIn store tokens token.toList = card.toList := by
  have hmatch := TokenFormat.mem_tokensIn_iff.1 (found token htoken)
  obtain ⟨earlier, later, rfl, hnew⟩ := List.eq_append_cons_of_mem htoken
  obtain ⟨hfound, -⟩ := List.forall_mem_append.1 found
  obtain ⟨-, hfree⟩ := List.forall_mem_append.1 free
  have hearlier : replacedIn store earlier token.toList = token.toList := by
    apply replacedIn_of_absent
    intro other hother known hoccurs
    have heq := apart.eq_found_of_occurs (hfound other hother) known hmatch hoccurs
    rw [String.toList_injective (Piece.found.inj heq)] at hnew
    exact hnew hother
  have hturn : replacedOnce store token.toList token = card.toList := by
    rw [replacedOnce, hcard]
    exact Text.replaceWord_self (Pattern.text_ne_nil_of_mem_cut hmatch) card.toList
  have hlater : replacedIn store later card.toList = card.toList :=
    replacedIn_of_absent fun other hother => hfree other (List.mem_cons_of_mem token hother)
  rw [replacedIn_append, hearlier]
  show replacedIn store later (replacedOnce store token.toList token) = _
  rw [hturn, hlater]

end

end CardGate.Payload
