import CardGate.Icap.Connection
import CardGate.Proofs.Substitution.Restored

/-!
# When a body passes

`Transform.Passes` says which bodies are sent on as they came: those without content, those that
are no text or no document, and those in which nothing is to be replaced.  What is to be replaced
is said of the body and the store alone, as card sites going in and as strings and tokens that the
store knows going out.

An adapted body is replaced if and only if it does not pass, by `adapted_of_passes` and
`exists_modified_of_not_passes`, and a body that passes is neither stored nor given a token.
-/

namespace CardGate

namespace Json

variable {card? : String → Option String}

/-- Nothing is known in a value that is not known itself and holds nothing that is. -/
theorem holdsNone_iff {d : Json} :
    HoldsNone card? d ↔ (∀ s, d = str s → card? s = none) ∧ ∀ v ∈ d.inside, HoldsNone card? v := by
  constructor
  · intro h
    refine ⟨fun s hs => h [] s ?_, fun v hv => h.inside hv⟩
    rw [follow, hs]
  · rintro ⟨hhere, hinside⟩ path s hs
    rcases follow_cases hs with hd | ⟨v, hv, rest, hrest⟩
    · exact hhere s hd
    · exact hinside v hv rest s hrest

theorem restoredAll_eq_false_iff {α : Type} {back : α → α × Bool} {parts : List α} :
    (restoredAll back parts).2 = false ↔ ∀ part ∈ parts, (back part).2 = false := by
  induction parts with
  | nil => exact iff_of_true rfl fun _ hpart => absurd hpart List.not_mem_nil
  | cons part more ih => rw [restoredAll, Bool.or_eq_false_iff, ih, List.forall_mem_cons]

/-- Nothing is known in a value that is no string if nothing is known inside. -/
theorem holdsNone_of_inside {d : Json} (hd : ∀ s, d ≠ str s) :
    HoldsNone card? d ↔ ∀ v ∈ d.inside, HoldsNone card? v := by
  rw [holdsNone_iff]
  exact and_iff_right fun s hs => absurd hs (hd s)

/-- Nothing is restored in a document if none of its strings is known, and only then. -/
theorem restored_eq_false_iff {d : Json} : (restored card? d).2 = false ↔ HoldsNone card? d := by
  induction d using induct with
  | arr items ih =>
    rw [restored_arr, restoredAll_eq_false_iff, holdsNone_of_inside (by simp)]
    exact forall₂_congr ih
  | obj members ih =>
    rw [restored_obj, restoredAll_eq_false_iff, holdsNone_of_inside (by simp), inside,
      List.forall_mem_map]
    exact forall₂_congr ih
  | str s =>
    rw [restored]
    cases hs : card? s with
    | none =>
      refine iff_of_true rfl (holdsNone_iff.2 ⟨fun t ht => ?_, fun v hv => ?_⟩)
      · cases ht
        exact hs
      · exact absurd hv List.not_mem_nil
    | some card =>
      refine iff_of_false (Bool.eq_false_iff.not.2 (not_not_intro rfl)) fun hnone => ?_
      rw [hnone [] s rfl] at hs
      cases hs
  | _ =>
    refine iff_of_true rfl ((holdsNone_of_inside (by simp)).2 fun v hv => ?_)
    exact absurd hv List.not_mem_nil

end Json

variable {σ : Type} [CardStore σ]

namespace Payload

theorem modified_foldl_replaceToken {store : σ} {page : Payload} {tokens : List String} :
    (tokens.foldl (replaceToken store) page).modified = false ↔
      page.modified = false ∧ ∀ token ∈ tokens, CardStore.retrieve store token = none := by
  induction tokens generalizing page with
  | nil => exact (and_iff_left fun _ htoken => absurd htoken List.not_mem_nil).symm
  | cons token more ih =>
    rw [List.foldl_cons, ih, List.forall_mem_cons, replaceToken]
    cases CardStore.retrieve store token with
    | none => simp
    | some card => simp

/-- A page passes if the store knows none of the tokens in it, and only then. -/
theorem modified_detokenizeHtml {store : σ} {format : TokenFormat} {text : String} :
    (detokenizeHtml store format text).modified = false ↔
      ∀ token ∈ format.tokensIn text, CardStore.retrieve store token = none := by
  rw [detokenizeHtml, modified_foldl_replaceToken]
  simp [unchanged]

end Payload

/-- A body that is sent on as it came, for each way to transform it. -/
inductive Transform.Passes (store : σ) (format : TokenFormat) : Transform → List UInt8 → Prop
  | empty {transform : Transform} : Passes store format transform []
  | noText {transform : Transform} {body : List UInt8} (broken : ∀ text, body ≠ Utf8.bytes text) :
      Passes store format transform body
  /-- Pages of HTML are the only bodies that need not be documents. -/
  | noDocument {transform : Transform} {text : String} {fault : Json.ReadError}
      (read : transform ≠ .detokenizeHtml) (broken : Json.parse text = .error fault) :
      Passes store format transform (Utf8.bytes text)
  | noCard {text : String} {document : Json} (parsed : Json.parse text = .ok document)
      (none : ∀ site, ¬Json.IsCardSite format document site) :
      Passes store format .tokenize (Utf8.bytes text)
  | noToken {text : String} {document : Json} (parsed : Json.parse text = .ok document)
      (none : Json.HoldsNone (Payload.cardFor? store format) document) :
      Passes store format .detokenize (Utf8.bytes text)
  | noTokenInPage {text : String}
      (none : ∀ token ∈ format.tokensIn text, CardStore.retrieve store token = none) :
      Passes store format .detokenizeHtml (Utf8.bytes text)

namespace Exchange

variable {format : TokenFormat} {tokens : Nat → String} {occasions : Nat → Occasion} {store : σ}
  {kind : Transform}

/-- The exchange over a body that is to be adapted. -/
def adapted (format : TokenFormat) (tokens : Nat → String) (occasions : Nat → Occasion) (store : σ)
    (kind : Transform) (body : List UInt8) : Exchange σ :=
  match bodyText? body with
  | none => withReply store (some .noContent)
  | some text => transform format tokens occasions store text kind

/-- A body is adapted by its text, unless it has no content. -/
theorem adapted_bytes {text : String} (h : Utf8.bytes text ≠ []) :
    adapted format tokens occasions store kind (Utf8.bytes text) =
      transform format tokens occasions store text kind := by
  rw [adapted, bodyText?, List.isEmpty_eq_false_iff.2 h, if_neg Bool.false_ne_true,
    Utf8.text?_bytes]

theorem adapted_of_no_text {body : List UInt8} (h : ∀ text, body ≠ Utf8.bytes text) :
    adapted format tokens occasions store kind body = withReply store (some .noContent) := by
  have hnone : Utf8.text? body = none := by
    rw [Option.eq_none_iff_forall_ne_some]
    exact fun text htext => h text (Utf8.text?_eq_some_iff.1 htext)
  rw [adapted, bodyText?, hnone]
  cases body.isEmpty <;> rfl

/-- A text that holds no document is sent on, unless it is a page. -/
theorem transform_of_no_document {text : String} {fault : Json.ReadError}
    (hkind : kind ≠ .detokenizeHtml) (hparse : Json.parse text = .error fault) :
    transform format tokens occasions store text kind = withReply store (some .noContent) := by
  cases kind with
  | tokenize =>
    rw [transform, Payload.deposit, hparse]
    rfl
  | detokenize =>
    rw [transform, Payload.detokenize, hparse]
    rfl
  | detokenizeHtml => exact absurd rfl hkind

theorem transform_tokenize_of_no_card {text : String} {document : Json}
    (hparse : Json.parse text = .ok document)
    (hnone : ∀ site, ¬Json.IsCardSite format document site) :
    transform format tokens occasions store text .tokenize =
      withReply store (some .noContent) := by
  have hsites : Json.cardSites format document = [] := by
    rw [List.eq_nil_iff_forall_not_mem]
    exact fun site hsite => hnone site (Json.mem_cardSites.1 hsite)
  rw [transform, Payload.deposit_of_cardSites_eq_nil hparse hsites]
  rfl

theorem transform_detokenize_of_no_token {text : String} {document : Json}
    (hparse : Json.parse text = .ok document)
    (hnone : Json.HoldsNone (Payload.cardFor? store format) document) :
    transform format tokens occasions store text .detokenize =
      withReply store (some .noContent) := by
  let restored := document.restored (Payload.cardFor? store format)
  have hrestored : restored = (restored.1, false) :=
    Prod.ext rfl (Json.restored_eq_false_iff.2 hnone)
  rw [transform, Payload.detokenize_eq hparse hrestored]
  rfl

theorem transform_detokenizeHtml_of_no_token {text : String}
    (hnone : ∀ token ∈ format.tokensIn text, CardStore.retrieve store token = none) :
    transform format tokens occasions store text .detokenizeHtml =
      withReply store (some .noContent) := by
  rw [transform, replyFor, Payload.modified_detokenizeHtml.2 hnone]
  rfl

/-- A body that passes leaves the message and the store as they are, and takes no token. -/
theorem adapted_of_passes {body : List UInt8} (h : kind.Passes store format body) :
    adapted format tokens occasions store kind body = withReply store (some .noContent) := by
  have hbytes {text : String} {kind : Transform}
      (htransform : transform format tokens occasions store text kind =
        withReply store (some .noContent)) :
      adapted format tokens occasions store kind (Utf8.bytes text) =
        withReply store (some .noContent) := by
    by_cases hempty : Utf8.bytes text = []
    · rw [hempty]
      rfl
    · rw [adapted_bytes hempty, htransform]
  cases h with
  | empty => rfl
  | noText broken => exact adapted_of_no_text broken
  | noDocument read broken => exact hbytes (transform_of_no_document read broken)
  | noCard parsed none => exact hbytes (transform_tokenize_of_no_card parsed none)
  | noToken parsed none => exact hbytes (transform_detokenize_of_no_token parsed none)
  | noTokenInPage none => exact hbytes (transform_detokenizeHtml_of_no_token none)

/-- A body that does not pass has a text. -/
theorem exists_text_of_not_passes {body : List UInt8} (h : ¬kind.Passes store format body) :
    ∃ text, body = Utf8.bytes text ∧ Utf8.bytes text ≠ [] := by
  have htext : ∃ text, body = Utf8.bytes text := by
    by_contra hnone
    exact h (.noText fun text htext => hnone ⟨text, htext⟩)
  obtain ⟨text, rfl⟩ := htext
  refine ⟨text, rfl, fun hempty => h ?_⟩
  rw [hempty]
  exact .empty

theorem exists_document_of_not_passes {text : String} (hkind : kind ≠ .detokenizeHtml)
    (h : ¬kind.Passes store format (Utf8.bytes text)) :
    ∃ document, Json.parse text = .ok document := by
  cases hparse : Json.parse text with
  | error fault => exact absurd (.noDocument hkind hparse) h
  | ok document => exact ⟨document, rfl⟩

/-- A body that does not pass is replaced. -/
theorem exists_modified_of_not_passes {body : List UInt8} (h : ¬kind.Passes store format body) :
    ∃ replaced, (adapted format tokens occasions store kind body).reply =
      some (.modified replaced) := by
  obtain ⟨text, rfl, hempty⟩ := exists_text_of_not_passes h
  rw [adapted_bytes hempty]
  cases kind with
  | tokenize =>
    have hkind : Transform.tokenize ≠ .detokenizeHtml := nofun
    obtain ⟨document, hparse⟩ := exists_document_of_not_passes hkind h
    have hcard : ∃ site, Json.IsCardSite format document site := by
      by_contra hnone
      exact h (.noCard hparse fun site hsite => hnone ⟨site, hsite⟩)
    rw [transform, Payload.deposit_eq hparse]
    dsimp only
    rw [replyFor, if_pos ((Payload.modified_deposited text document).2 hcard)]
    exact ⟨_, rfl⟩
  | detokenize =>
    have hkind : Transform.detokenize ≠ .detokenizeHtml := nofun
    obtain ⟨document, hparse⟩ := exists_document_of_not_passes hkind h
    let restored := document.restored (Payload.cardFor? store format)
    have hfound : restored.2 = true := by
      rw [← Bool.not_eq_false, Json.restored_eq_false_iff]
      exact fun hnone => h (.noToken hparse hnone)
    have hrestored : restored = (restored.1, true) := Prod.ext rfl hfound
    rw [transform, Payload.detokenize_eq hparse hrestored]
    exact ⟨_, rfl⟩
  | detokenizeHtml =>
    have hfound : (Payload.detokenizeHtml store format text).modified = true := by
      rw [← Bool.not_eq_false, Payload.modified_detokenizeHtml]
      exact fun hnone => h (.noTokenInPage hnone)
    rw [transform, replyFor, if_pos hfound]
    exact ⟨_, rfl⟩

/-- Only tokenizing writes to the store and takes tokens. -/
theorem exists_adapted_eq_of_ne_tokenize {body : List UInt8} (hkind : kind ≠ .tokenize) :
    ∃ reply, ∀ tokens occasions,
      adapted format tokens occasions store kind body = withReply store (some reply) := by
  cases hbody : bodyText? body with
  | none => exact ⟨.noContent, fun tokens occasions => by rw [adapted, hbody]⟩
  | some text =>
    cases kind with
    | tokenize => exact absurd rfl hkind
    | detokenize =>
      exact ⟨replyFor (Payload.detokenize store format text), fun tokens occasions => by
        rw [adapted, hbody]
        rfl⟩
    | detokenizeHtml =>
      exact ⟨replyFor (.ok (Payload.detokenizeHtml store format text)), fun tokens occasions => by
        rw [adapted, hbody]
        rfl⟩

end Exchange

end CardGate
